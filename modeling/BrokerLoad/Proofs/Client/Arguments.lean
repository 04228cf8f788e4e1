import BrokerLoad.Client.Program
import BrokerLoad.Fleet.Run
import BrokerLoad.Proofs.CommandLine.Values
import BrokerLoad.Proofs.Config.Broker

/-!
# The command line of a bundled client

A run hands the settings of its plan to the bundled client as options, each value in an argument of
its own, and the client reads them back with its own description of the command line. Numbers come
back as they were: they are written in digits, and the broker reads back from its text. The free
texts come back too, unless one of them reads as an option itself; then the client refuses its
command line.

## Main definitions

* `ClientProgram.settingsRow`: the options with their values.
* `ClientProgram.freeTexts`: the values that are handed over as they are.
* `ClientProgram.Understands`: what a client makes of its arguments is what was meant.

## Main statements

* `ClientProgram.understands_iff`: when a client understands its arguments.
-/

namespace BrokerLoad

open CommandLine

/-! ## §1 Numbers as arguments -/

/-- The text of a natural number begins with a digit. -/
theorem integerText_head {n : Int} (hn : 0 ≤ n) :
    ∃ c rest, (integerText n).toList = c :: rest ∧ c ≠ '-' := by
  obtain ⟨c, rest, hdigits, hc⟩ := exists_decimalDigits n.natAbs
  refine ⟨c, rest, ?_, ne_of_isDigit hc rfl⟩
  rw [integerText, String.toList_ofList, integerChars, decide_eq_false (by omega), ← hdigits]
  rfl

theorem toString_eq_integerText (n : Nat) : toString n = integerText n := by
  rw [Nat.toString_eq_ofList_toDigits, integerText, integerChars, decide_eq_false (by omega)]
  rfl

/-- The text of a decimal begins with a digit. -/
theorem Decimal.text_head (d : Decimal) : ∃ c rest, d.text = c :: rest ∧ c.isDigit = true := by
  obtain ⟨c, rest, hdigits, hc⟩ := exists_decimalDigits d.digits
  unfold Decimal.text
  simp only [hdigits]
  split
  · split
    · exact ⟨'0', _, rfl, rfl⟩
    · rename_i hpoint
      split
      · exact ⟨c, _, rfl, hc⟩
      · -- the point stands behind the first digit or later
        obtain ⟨k, hk⟩ : ∃ k, (((c :: rest).length : Int) + d.exponent).toNat = k + 1 :=
          ⟨_, (Nat.succ_pred (by omega)).symm⟩
        rw [hk]
        exact ⟨c, _, rfl, hc⟩
  · exact ⟨c, _, rfl, hc⟩

theorem Double.zero_eq : (Seconds.zero : Double) =
    .finite false ⟨0, by decide +kernel, Nat.dvd_zero _⟩ := by
  decide +kernel

/-- The text of a positive number begins with no minus sign. -/
theorem Double.text_head {x : Double} (h : Seconds.lt Seconds.zero x = true) :
    ∃ c rest, x.text.toList = c :: rest ∧ c ≠ '-' := by
  cases x with
  | nan => exact absurd h (by decide +kernel)
  | infinite negative =>
    cases negative with
    | true => exact absurd h (by decide +kernel)
    | false => exact ⟨'i', ['n', 'f'], rfl, by decide⟩
  | finite negative m =>
    cases negative with
    | true =>
      rw [Double.zero_eq] at h
      have hless : (0 : Int) < -(m.units : Int) := of_decide_eq_true h
      omega
    | false =>
      obtain ⟨c, rest, htext, hc⟩ := m.shortest.text_head
      exact ⟨c, rest, by rw [Double.text, String.toList_ofList]; exact htext, ne_of_isDigit hc rfl⟩

/-! ## §2 The options for the broker -/

namespace ClientProgram

/-- An option for the broker with its value. -/
def option (key : String) (kind : Kind) (text : String) (value : Value) : Assignment :=
  ⟨⟨["--" ++ key], key, kind⟩, "--" ++ key, text, value⟩

/-- The options that hand some settings to a client. -/
def settingsRow (s : ClientSettings) : List Assignment :=
  [option "broker" .text s.broker.text (.text s.broker.text),
    option "topic" .text s.topic (.text s.topic),
    option "qos" (.choice [0, 1, 2]) (integerText s.qos) (.integer s.qos),
    option "keepalive" .integer (integerText s.keepalive) (.integer s.keepalive)] ++
  match s.username with
  | none => []
  | some username =>
    option "username" .text username (.text username) ::
      match s.password with
      | none => []
      | some password => [option "password" .text password (.text password)]

/-- The texts among some settings that a client is handed as they are. -/
def freeTexts (s : ClientSettings) : List String :=
  [s.broker.text, s.topic] ++
  match s.username with
  | none => []
  | some username => username :: s.password.toList

theorem settingsArgs_eq (s : ClientSettings) :
    Build.settingsArgs s = (settingsRow s).flatMap Assignment.arguments := by
  unfold Build.settingsArgs settingsRow
  cases s.username with
  | none => rfl
  | some username => cases s.password <;> rfl

theorem command_spelled : Spelled command.switches := by decide

variable {s : ClientSettings}

/-- The options that take a value. -/
def valued : List (String × Kind) :=
  [("broker", .text), ("topic", .text), ("qos", .choice [0, 1, 2]), ("keepalive", .integer),
    ("username", .text), ("password", .text)]

/-- An option of the client fits if its value can be read. -/
theorem option_fits {key : String} {kind : Kind} {text : String} {value : Value}
    (hkey : (key, kind) ∈ valued) (hread : readValue ("--" ++ key) kind text = .ok value) :
    (option key kind text value).Fits command := by
  have hall : ∀ m ∈ valued, (spellingsOf command.switches).lookup ("--" ++ m.1) =
      some ⟨["--" ++ m.1], m.1, m.2⟩ ∧ m.2.takesValue = true := by decide
  obtain ⟨hswitch, htakes⟩ := hall (key, kind) hkey
  exact ⟨hswitch, htakes, hread⟩

theorem readValue_qos (s : ClientSettings) :
    readValue "--qos" (.choice [0, 1, 2]) (integerText s.qos) = .ok (.integer s.qos) := by
  have h : s.qos = 0 ∨ s.qos = 1 ∨ s.qos = 2 := by
    have := s.qos_mem
    omega
  rcases h with h | h | h <;> rw [h] <;> decide

theorem readValue_integer (title : String) {n : Int} (hn : isWritable n = true) :
    readValue title .integer (integerText n) = .ok (.integer n) := by
  rw [readValue, readInteger_integerText hn]

/-- The options are those of the client, and their values can be read. -/
theorem settingsRow_fits (hkeepalive : isWritable s.keepalive = true) :
    ∀ a ∈ settingsRow s, a.Fits command := by
  intro a ha
  unfold settingsRow at ha
  rcases List.mem_append.mp ha with ha | ha
  · simp only [List.mem_cons, List.not_mem_nil, or_false] at ha
    rcases ha with rfl | rfl | rfl | rfl
    · exact option_fits (by decide) rfl
    · exact option_fits (by decide) rfl
    · exact option_fits (by decide) (readValue_qos s)
    · exact option_fits (by decide) (readValue_integer _ hkeepalive)
  · cases hu : s.username with
    | none =>
      rw [hu] at ha
      cases ha
    | some username =>
      rw [hu] at ha
      rcases List.mem_cons.mp ha with rfl | ha
      · exact option_fits (by decide) rfl
      · cases hp : s.password with
        | none =>
          rw [hp] at ha
          cases ha
        | some password =>
          rw [hp] at ha
          obtain rfl := List.mem_singleton.mp ha
          exact option_fits (by decide) rfl

/-- Only the free texts can read as options: the numbers are written in digits. -/
theorem settingsRow_option :
    (∃ a ∈ settingsRow s, readsAsOption command.switches a.text = true) ↔
      ∃ text ∈ freeTexts s, readsAsOption command.switches text = true := by
  have hqos : readsAsOption command.switches (integerText s.qos) = false := by
    obtain ⟨c, rest, htext, hc⟩ := integerText_head s.qos_mem.1
    exact readsAsOption_of_head htext hc
  have hkeepalive : readsAsOption command.switches (integerText s.keepalive) = false := by
    obtain ⟨c, rest, htext, hc⟩ := integerText_head (Int.le_of_lt s.keepalive_pos)
    exact readsAsOption_of_head htext hc
  unfold settingsRow freeTexts
  cases s.username with
  | none => simp [option, hqos, hkeepalive]
  | some username => cases s.password <;> simp [option, hqos, hkeepalive]

/-! ## §3 The mode and its operands -/

/-- The arguments with which a run hands some settings to the bundled client in a role. -/
def argumentsOf (plan : Plan Double) (role : Role) : List String :=
  Build.settingsArgs plan.settings ++ Fleet.roleArgs plan role

/-- No argument of a role reads as an option. -/
theorem roleArgs_plain (plan : Plan Double) (role : Role) (switches : List Switch) :
    ∀ a ∈ Fleet.roleArgs plan role, readsAsOption switches a = false := by
  cases role with
  | subscriber =>
    simp only [Fleet.roleArgs, List.mem_singleton, forall_eq]
    rfl
  | publisher =>
    simp only [Fleet.roleArgs, List.mem_cons, List.not_mem_nil, or_false, forall_eq_or_imp,
      forall_eq]
    refine ⟨rfl, ?_, ?_, ?_⟩
    · obtain ⟨c, rest, htext, hc⟩ := integerText_head (Int.natCast_nonneg plan.payloadSize)
      rw [toString_eq_integerText]
      exact readsAsOption_of_head htext hc
    · obtain ⟨c, rest, htext, hc⟩ := Double.text_head plan.duration_pos
      exact readsAsOption_of_head htext hc
    · obtain ⟨c, rest, htext, hc⟩ := Double.text_head plan.interval_pos
      exact readsAsOption_of_head htext hc

/-- The values of some settings, the last one first. -/
def rowValues (s : ClientSettings) : List (String × Value) :=
  ((settingsRow s).map fun a => (a.switch.key, a.value)).reverse

/-- The options are taken up to the mode word, if no free text reads as an option. -/
theorem takeAll_command {plan : Plan Double} {role : Role} {word : String} {operands : List String}
    (hkeepalive : isWritable plan.settings.keepalive = true)
    (hplain : ¬ ∃ text ∈ freeTexts plan.settings, readsAsOption command.switches text = true)
    (hrole : Fleet.roleArgs plan role = word :: operands) :
    command.takeAll (argumentsOf plan role) =
      .ok { values := rowValues plan.settings, mode := some (word, operands) } := by
  have hrow : ∀ a ∈ settingsRow plan.settings, readsAsOption command.switches a.text = false := by
    rw [← settingsRow_option] at hplain
    intro a ha
    exact Bool.eq_false_iff.mpr fun h => hplain ⟨a, ha, h⟩
  have hmode : ∀ a ∈ word :: operands, readsAsOption command.switches a = false :=
    hrole ▸ roleArgs_plain plan role command.switches
  rw [Command.takeAll_eq, argumentsOf, settingsArgs_eq, hrole,
    readFrom_assignments command_spelled (settingsRow_fits hkeepalive) hrow rfl rfl,
    readFrom_mode command_spelled rfl hmode rfl]
  simp [Progress.withValues, rowValues, command, bind, Except.bind, pure, Except.pure]

/-- The operands of a publisher are read. -/
theorem takeAll_publishMode {plan : Plan Double}
    (hpayload : isWritable plan.payloadSize = true)
    (hduration : readDouble? plan.duration.text = some plan.duration)
    (hinterval : readDouble? plan.interval.text = some plan.interval) :
    ∃ q, publishMode.takeAll [toString plan.payloadSize, Seconds.text plan.duration,
        Seconds.text plan.interval] = .ok q ∧
      q.extras = [] ∧
      q.values = [("interval", .real plan.interval), ("duration", .real plan.duration),
        ("payload_size", .integer plan.payloadSize)] := by
  have hwell : Spelled publishMode.switches := by decide
  have hplain := roleArgs_plain plan .publisher publishMode.switches
  simp only [Fleet.roleArgs, List.forall_mem_cons] at hplain
  obtain ⟨-, hn, hd, hi, -⟩ := hplain
  have hreadn : readValue "payload_size" .integer (toString plan.payloadSize) =
      .ok (.integer plan.payloadSize) := by
    rw [toString_eq_integerText, readValue_integer _ hpayload]
  have hreadd : readValue "duration" .real (Seconds.text plan.duration) =
      .ok (.real plan.duration) := by
    simp only [readValue, show Seconds.text plan.duration = plan.duration.text from rfl, hduration]
  have hreadi : readValue "interval" .real (Seconds.text plan.interval) =
      .ok (.real plan.interval) := by
    simp only [readValue, show Seconds.text plan.interval = plan.interval.text from rfl, hinterval]
  rw [Command.takeAll_eq]
  rw [readFrom_operand hwell rfl hn rfl hreadn rfl, readFrom_operand hwell rfl hd rfl hreadd rfl,
    readFrom_operand hwell rfl hi rfl hreadi rfl]
  exact ⟨_, rfl, rfl, rfl⟩

/-! ## §4 What the client makes of them -/

/-- Each option has the value that it was given. -/
theorem lookup_rowValues (s : ClientSettings) :
    (rowValues s).lookup "broker" = some (.text s.broker.text) ∧
      (rowValues s).lookup "topic" = some (.text s.topic) ∧
      (rowValues s).lookup "qos" = some (.integer s.qos) ∧
      (rowValues s).lookup "keepalive" = some (.integer s.keepalive) ∧
      (rowValues s).lookup "username" = s.username.map .text ∧
      (rowValues s).lookup "password" = (s.username.bind fun _ => s.password).map .text := by
  unfold rowValues settingsRow
  cases s.username with
  | none => exact ⟨rfl, rfl, rfl, rfl, rfl, rfl⟩
  | some username =>
    cases s.password with
    | none => exact ⟨rfl, rfl, rfl, rfl, rfl, rfl⟩
    | some password => exact ⟨rfl, rfl, rfl, rfl, rfl, rfl⟩

/-- The values of a mode's own operands do not hide those of the settings. -/
theorem value?_settings {p : Parsed} {own : List (String × Value)}
    (hvalues : p.values = own ++ rowValues s) (hown : ∀ m ∈ valued, m.1 ∉ own.map Prod.fst)
    {m : String × Kind} (hm : m ∈ valued) : p.value? m.1 = (rowValues s).lookup m.1 := by
  have hnone : own.lookup m.1 = none := by
    rw [List.lookup_eq_none_iff]
    intro n hn
    rw [bne_iff_ne]
    rintro heq
    exact hown m hm (heq ▸ List.mem_map_of_mem hn)
  rw [Parsed.value?, hvalues, List.lookup_append, hnone, Option.none_or]

/-- The values of some settings give these settings, whatever the defaults are. -/
theorem settingsOf_values {given : String} {p : Parsed} (own : List (String × Value))
    (defaults : Defaults) (hbroker : BrokerAddress.parse given = .ok s.broker)
    (hpassword : s.username = none → s.password = none)
    (hvalues : p.values = own ++ rowValues s) (hown : ∀ m ∈ valued, m.1 ∉ own.map Prod.fst) :
    settingsOf defaults p = .ok s := by
  have hvalue : ∀ m ∈ valued, p.value? m.1 = (rowValues s).lookup m.1 :=
    fun m hm => value?_settings hvalues hown hm
  obtain ⟨hb, ht, hq, hk, hu, hp⟩ := lookup_rowValues s
  have hb' : p.value? "broker" = _ := (hvalue ("broker", .text) (by decide)).trans hb
  have ht' : p.value? "topic" = _ := (hvalue ("topic", .text) (by decide)).trans ht
  have hq' : p.value? "qos" = _ := (hvalue ("qos", .choice [0, 1, 2]) (by decide)).trans hq
  have hk' : p.value? "keepalive" = _ := (hvalue ("keepalive", .integer) (by decide)).trans hk
  have hu' : p.value? "username" = _ := (hvalue ("username", .text) (by decide)).trans hu
  have hp' : p.value? "password" = _ := (hvalue ("password", .text) (by decide)).trans hp
  have hbroker' : p.broker defaults.broker = .ok s.broker := by
    simp only [Parsed.broker, Parsed.text, hb', needed, bind, Except.bind]
    rw [BrokerAddress.parse_text hbroker]
    rfl
  have htopic : p.topic defaults.topic = s.topic := by
    simp only [Parsed.topic, Parsed.text, ht', Option.getD_some]
  have hqos : p.qos defaults.qos = .ok s.qos := by
    simp only [Parsed.qos, Parsed.integer, hq']
  have hkeepalive : p.keepalive = .ok s.keepalive := by
    simp only [Parsed.keepalive, Parsed.integer, hk', needed]
  have husername : (credentialOf p "username").bind Credential.text? = s.username := by
    unfold credentialOf
    rw [hu']
    cases s.username <;> rfl
  have hpassword' : (credentialOf p "password").bind Credential.text? = s.password := by
    unfold credentialOf
    rw [hp']
    cases hname : s.username with
    | none => rw [hpassword hname]; rfl
    | some username => cases s.password <;> rfl
  simp only [settingsOf, hbroker', htopic, hqos, hkeepalive, husername, hpassword', bind,
    Except.bind, ClientSettings.ofAttempts]
  rw [dif_pos s.topic_ne, dif_pos s.qos_mem, dif_pos s.keepalive_pos]
  rfl

/-- What a client makes of its arguments: the mode of its role, the settings of the plan and, for a
publisher, a plan with the same payload and times. -/
def Understands (defaults : Defaults) (plan : Plan Double) (role : Role)
    (arguments : List String) : Prop :=
  ∃ parsed, parseModes command modes arguments = .ok parsed ∧
    parsed.mode = (match role with | .subscriber => "sub" | .publisher => "pub") ∧
    settingsOf defaults parsed = .ok plan.settings ∧
    (role = .publisher → ∃ own, planOf plan.settings parsed = .ok own ∧
      own.payloadSize = plan.payloadSize ∧ own.duration = plan.duration ∧
      own.interval = plan.interval ∧ own.settings = plan.settings)

/-- The values of a publisher's operands give its plan. -/
theorem planOf_values {plan : Plan Double} {p : Parsed} {rest : List (String × Value)}
    (hvalues : p.values = [("interval", .real plan.interval), ("duration", .real plan.duration),
      ("payload_size", .integer plan.payloadSize)] ++ rest) :
    planOf plan.settings p = .ok { plan with publishers := 1, subscribers := 0 } := by
  have hn : p.value? "payload_size" = some (.integer plan.payloadSize) := by
    rw [Parsed.value?, hvalues]
    rfl
  have hd : p.value? "duration" = some (.real plan.duration) := by
    rw [Parsed.value?, hvalues]
    rfl
  have hi : p.value? "interval" = some (.real plan.interval) := by
    rw [Parsed.value?, hvalues]
    rfl
  simp only [planOf, Parsed.count, Parsed.integer, Parsed.span, Parsed.real, hn, hd, hi, needed,
    Plan.ofAttempts, bind, Except.bind]
  have hnat : ¬ (plan.payloadSize : Int) < 0 := by omega
  rw [if_neg (by decide), if_neg (by decide), if_neg hnat, dif_pos plan.duration_pos,
    dif_pos plan.interval_pos]
  rfl

/-- A free text that reads as an option is refused. -/
theorem parse_of_option {plan : Plan Double} (role : Role)
    (hkeepalive : isWritable plan.settings.keepalive = true)
    (hoption : ∃ text ∈ freeTexts plan.settings, readsAsOption command.switches text = true) :
    ∃ complaint, parseModes command modes (argumentsOf plan role) =
      .error (.usage ⟨command.name, complaint⟩) := by
  obtain ⟨complaint, hread⟩ := readFrom_assignments_option command_spelled
    (settingsRow_fits hkeepalive) (settingsRow_option.mpr hoption) (p := {}) rfl rfl
    (Fleet.roleArgs plan role)
  refine ⟨complaint, ?_⟩
  have htake : command.takeAll (argumentsOf plan role) =
      .error (.usage ⟨command.name, complaint⟩) := by
    rw [Command.takeAll_eq, argumentsOf, settingsArgs_eq]
    exact congrArg (· >>= _) hread
  simp only [parseModes, htake, bind, Except.bind]

section Plain

variable {given : String} {plan : Plan Double} (defaults : Defaults)
  (hbroker : BrokerAddress.parse given = .ok plan.settings.broker)
  (hpassword : plan.settings.username = none → plan.settings.password = none)
  (hkeepalive : isWritable plan.settings.keepalive = true)
  (hplain : ¬ ∃ text ∈ freeTexts plan.settings, readsAsOption command.switches text = true)

include hbroker hpassword hkeepalive hplain

theorem understands_subscriber :
    Understands defaults plan .subscriber (argumentsOf plan .subscriber) := by
  have htake : command.takeAll (argumentsOf plan .subscriber) =
      .ok { values := rowValues plan.settings, mode := some ("sub", []) } :=
    takeAll_command hkeepalive hplain rfl
  refine ⟨{ values := rowValues plan.settings, mode := "sub" }, ?_, rfl, ?_, by nofun⟩
  · simp only [parseModes, htake, bind, Except.bind]
    rfl
  · exact settingsOf_values [] defaults hbroker hpassword rfl (by decide)

theorem understands_publisher (hpayload : isWritable plan.payloadSize = true)
    (hduration : readDouble? plan.duration.text = some plan.duration)
    (hinterval : readDouble? plan.interval.text = some plan.interval) :
    Understands defaults plan .publisher (argumentsOf plan .publisher) := by
  have htake : command.takeAll (argumentsOf plan .publisher) =
      .ok { values := rowValues plan.settings, mode := some ("pub", [toString plan.payloadSize,
        Seconds.text plan.duration, Seconds.text plan.interval]) } :=
    takeAll_command hkeepalive hplain rfl
  obtain ⟨q, hq, hextras, hvalues⟩ := takeAll_publishMode hpayload hduration hinterval
  have hmode : modes.lookup "pub" = some publishMode := rfl
  refine ⟨{ values := q.values ++ rowValues plan.settings, mode := "pub" }, ?_, rfl, ?_, ?_⟩
  · simp only [parseModes, htake, bind, Except.bind, Option.getD_some, hmode, hq, hextras]
    rfl
  · refine settingsOf_values q.values defaults hbroker hpassword rfl ?_
    rw [hvalues]
    show ∀ m ∈ valued, m.1 ∉ ["interval", "duration", "payload_size"]
    decide
  · intro _
    exact ⟨_, planOf_values (congrArg (· ++ _) hvalues), rfl, rfl, rfl, rfl⟩

end Plain

/-- The bundled client gets back what a run hands to it on its command line, in either role, if and
only if none of the free texts reads as an option; otherwise it refuses its command line. -/
theorem understands_iff (interpreter given : String) (plan : Plan Double) (role : Role)
    (defaults : Defaults) (hbroker : BrokerAddress.parse given = .ok plan.settings.broker)
    (hpassword : plan.settings.username = none → plan.settings.password = none)
    (hkeepalive : isWritable plan.settings.keepalive = true)
    (hpayload : isWritable plan.payloadSize = true)
    (hduration : readDouble? plan.duration.text = some plan.duration)
    (hinterval : readDouble? plan.interval.text = some plan.interval) :
    let arguments :=
      ((Build.bundled interpreter).command (Fleet.roleArgs plan role) plan.settings).drop 3
    (Understands defaults plan role arguments ↔
      ∀ text ∈ freeTexts plan.settings, readsAsOption command.switches text = false) ∧
    ((∃ text ∈ freeTexts plan.settings, readsAsOption command.switches text = true) →
      ∃ complaint, parseModes command modes arguments =
        .error (.usage ⟨command.name, complaint⟩)) := by
  intro arguments
  have harguments : arguments = argumentsOf plan role := rfl
  rw [harguments]
  have hrefused := parse_of_option role hkeepalive
  refine ⟨⟨?_, ?_⟩, hrefused⟩
  · rintro ⟨parsed, hparsed, -⟩ text htext
    by_contra hoption
    obtain ⟨complaint, hread⟩ := hrefused ⟨text, htext, eq_true_of_ne_false hoption⟩
    rw [hread] at hparsed
    cases hparsed
  · intro hplain
    have hnone : ¬ ∃ text ∈ freeTexts plan.settings,
        readsAsOption command.switches text = true := by
      rintro ⟨text, htext, hoption⟩
      rw [hplain text htext] at hoption
      cases hoption
    cases role with
    | subscriber => exact understands_subscriber defaults hbroker hpassword hkeepalive hnone
    | publisher =>
      exact understands_publisher defaults hbroker hpassword hkeepalive hnone hpayload hduration
        hinterval

/-- A plan with a given topic. -/
def plain (topic : String) (h : topic ≠ "") : Plan Double where
  publishers := 1
  subscribers := 1
  payloadSize := 100
  duration := 5
  interval := .ofDecimal false 5 (-1)
  settings :=
    { broker := { host := "localhost" }, topic, qos := 1, keepalive := 90
      username := some "load", password := some "-open sesame"
      topic_ne := h, qos_mem := by decide, keepalive_pos := by decide }
  duration_pos := by decide +kernel
  interval_pos := by decide +kernel

/-- A topic that begins with a number sign and a password with a blank in it are handed on. -/
theorem blank_password_understood :
    let plan := plain "#load" (by decide)
    Understands {} plan .publisher
      (((Build.bundled "python").command (Fleet.roleArgs plan .publisher) plan.settings).drop 3) :=
  (understands_iff "python" "localhost" (plain "#load" (by decide)) .publisher {}
    (by decide +kernel) (by decide) (by decide +kernel) (by decide +kernel) (by decide +kernel)
    (by decide +kernel)).1.mpr (by decide +kernel)

/-- A topic that begins with a minus sign is taken for an option, and the client ends with a usage
error. -/
theorem dashed_topic_refused :
    let plan := plain "-t" (by decide)
    BrokerAddress.parse "localhost" = .ok plan.settings.broker ∧
      parseModes command modes
        (((Build.bundled "python").command (Fleet.roleArgs plan .subscriber)
          plan.settings).drop 3) =
        .error (.usage ⟨"loadbench-client", .expectedValue "--topic"⟩) :=
  ⟨by decide +kernel, rfl⟩

end ClientProgram

end BrokerLoad
