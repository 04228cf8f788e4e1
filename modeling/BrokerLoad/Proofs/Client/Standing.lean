import BrokerLoad.Proofs.Client.Dialogue
import BrokerLoad.Proofs.Client.Handshake

/-!
# Whether a connection knows how it stands

A connection that takes itself for up is ended by its owner, one that takes itself for down is not.
It should be down after an attempt to connect that failed and after a request that reported a loss,
and up after an attempt that was accepted. It is not quite so. What it takes itself for is written
by the network's events, and the last one wins, so that it can be up after a failed attempt whose
two concluding calls brought an acceptance, and down after an accepted one whose deciding loop call
brought the end of the session, too. Faults that come without events leave it as it was: that of an
attempt that reached no broker, and that of a publish or a subscription which the library refuses
because there is no connection. Only a loop call that fails puts it down. These are all the cases.

## Main definitions

* `EndsUp`: events that leave a connection up.
* `Connection.RefusedAtOnce`: a request that the library refuses because there is no connection.

## Main statements

* `Connection.failed_connect_up_iff`: when a connection is up after an attempt that failed.
* `Connection.accepted_connect_up_iff`: when it is up after one that was accepted.
* `Connection.reported_loss_up_iff`: when it is up after a loss that a request reported.
-/

namespace BrokerLoad

variable {τ σ : Type}

/-! ## §1 Events that leave a connection up -/

/-- The last thing that some events tell about a connection is that the broker accepts it. -/
def EndsUp (events : List NetworkEvent) : Prop :=
  ∃ earlier answer later, events = earlier ++ .answered answer :: later ∧
    answer.failure = false ∧ (∀ e ∈ later, e.answer? = none) ∧
    ∀ reason, .disconnected reason ∉ later

/-- Without an answer a connection stays up if it was up and its session does not end. -/
theorem standing_unanswered {events : List NetworkEvent} (up : Bool)
    (h : ∀ e ∈ events, e.answer? = none) :
    standing up (events.filterMap NetworkEvent.sign?) = true ↔
      up = true ∧ ∀ reason, .disconnected reason ∉ events := by
  induction events generalizing up with
  | nil => exact ⟨fun hup => ⟨hup, fun _ => List.not_mem_nil⟩, And.left⟩
  | cons e rest ih =>
    obtain ⟨hfirst, hrest⟩ := List.forall_mem_cons.mp h
    cases e with
    | answered answer => cases hfirst
    | disconnected reason =>
      have hdown := ih false hrest
      refine ⟨fun hup => ?_, fun hup => absurd List.mem_cons_self (hup.2 reason)⟩
      cases (hdown.mp hup).1
    | _ =>
      refine (ih up hrest).trans (and_congr_right fun _ => forall_congr' fun reason => not_congr ?_)
      rw [List.mem_cons, or_iff_right (by exact nofun)]

/-- The last answer decides, and whether the session ends after it. -/
theorem standing_answered {later : List NetworkEvent} (up : Bool) (earlier : List NetworkEvent)
    (answer : ReasonCode) (h : ∀ e ∈ later, e.answer? = none) :
    standing up ((earlier ++ .answered answer :: later).filterMap NetworkEvent.sign?) = true ↔
      answer.failure = false ∧ ∀ reason, .disconnected reason ∉ later := by
  have hsplit : standing up ((earlier ++ .answered answer :: later).filterMap NetworkEvent.sign?) =
      standing (!answer.failure) (later.filterMap NetworkEvent.sign?) := by
    rw [List.filterMap_append, standing_append]
    rfl
  rw [hsplit, standing_unanswered _ h, Bool.not_eq_true']

/-- Events put a connection up that was down if and only if the last thing that they tell is that it
is accepted. -/
theorem standing_false_iff (events : List NetworkEvent) :
    standing false (events.filterMap NetworkEvent.sign?) = true ↔ EndsUp events := by
  constructor
  · intro hup
    cases hlast : lastAnswer? events with
    | none =>
      have hdown := (standing_unanswered false (lastAnswer?_eq_none.mp hlast)).mp hup
      exact absurd hdown.1 Bool.false_ne_true
    | some answer =>
      obtain ⟨earlier, later, rfl, hlater⟩ := lastAnswer?_eq_some hlast
      obtain ⟨haccepted, hgoes⟩ := (standing_answered false earlier answer hlater).mp hup
      exact ⟨earlier, answer, later, rfl, haccepted, hlater, hgoes⟩
  · rintro ⟨earlier, answer, later, rfl, haccepted, hlater, hgoes⟩
    exact (standing_answered false earlier answer hlater).mpr ⟨haccepted, hgoes⟩

/-- It can be computed whether two requests ended alike. -/
instance : DecidableEq (Except Stop Unit)
  | .ok _, .ok _ => isTrue rfl
  | .error stop, .error other => decidable_of_iff (stop = other) ⟨congrArg _, Except.error.inj⟩
  | .ok _, .error _ => isFalse nofun
  | .error _, .ok _ => isFalse nofun

namespace Connection

variable [Seconds τ] {c : Connection τ} {w : Wire τ σ} {fuel : Nat} {line : Line σ}

/-! ## §2 Attempts to connect -/

/-- A connection whose attempt to connect failed takes itself for up in two cases only: it was up
before, and the library could not connect; or the last thing that came while the attempt was
concluded is that the broker accepts it. -/
theorem failed_connect_up_iff {reason : ConnectError}
    (hfail : ((c.session w fuel).connect line).1.outcome = .error (.fault (.connect reason))) :
    let e := (c.session w fuel).connect line
    let calls := w.exchanges line.env e.1.notes
    e.2.link.connected = true ↔
      (line.link.connected = true ∧ ∃ f, calls = [c.dialling (.error f)]) ∨
      ∃ loops events code, calls = c.dialling (.ok ()) ::
          (loops ++ [.disconnect, .loop Seconds.zero events code]) ∧ EndsUp events := by
  intro e calls
  obtain ⟨xs, hanswer, hnoted⟩ := request_replies (c := c) (w := w) fuel .connect line
  obtain rfl : calls = xs := hnoted.exchanges
  change Answer c _ _ e.1.outcome calls e.2.link.connected at hanswer
  rw [hfail] at hanswer
  generalize calls = calls at hanswer ⊢
  generalize line.link.connected = before, e.2.link.connected = up at hanswer ⊢
  cases hanswer with
  | @unreachable _ f =>
    refine ⟨fun hup => .inl ⟨hup, f, rfl⟩, ?_⟩
    rintro (⟨hup, -⟩ | ⟨loops, events, code, hcalls, -⟩)
    · exact hup
    · cases hcalls
  | @turnedAway _ _ loops events code _ =>
    rw [standing_false_iff]
    refine ⟨fun hup => .inr ⟨loops, events, code, rfl, hup⟩, ?_⟩
    rintro (⟨-, f, hcalls⟩ | ⟨loops', events', code', hcalls, hup⟩)
    · cases hcalls
    · have hlast := (List.append_inj' (List.cons.inj hcalls).2 rfl).2
      cases hlast
      exact hup

/-- A network whose answer comes just too late: the first three loop calls bring nothing, and the
one that concludes the attempt brings an acceptance. -/
def tardy : Line (NetworkRehearsal Rat) where
  env :=
    { script := { loops := [{}, {}, {}, { events := [.answered ⟨"Success", false⟩] }] }
      now := 0 }

/-- The attempt fails, and leaves a connection that was down up. -/
theorem tardy_acceptance_leaves_up :
    let e := (impatient.session scripted 9).connect tardy
    tardy.link.connected = false ∧
      e.1.outcome = .error (.fault (.connect impatient.overdueError)) ∧
      e.2.link.connected = true := by
  decide +kernel

/-- What came last while that attempt was concluded is the acceptance. -/
theorem tardy_acceptance_ends_up :
    ((impatient.session scripted 9).connect tardy).1.outcome =
        .error (.fault (.connect impatient.overdueError)) ∧
      ∃ loops events code,
        scripted.exchanges tardy.env ((impatient.session scripted 9).connect tardy).1.notes =
          impatient.dialling (.ok ()) ::
            (loops ++ [.disconnect, .loop Seconds.zero events code]) ∧
        EndsUp events := by
  have hfail : ((impatient.session scripted 9).connect tardy).1.outcome =
      .error (.fault (.connect impatient.overdueError)) := by decide +kernel
  have hup : ((impatient.session scripted 9).connect tardy).2.link.connected = true := by
    decide +kernel
  refine ⟨hfail, ((failed_connect_up_iff hfail).mp hup).resolve_left fun hbefore => ?_⟩
  -- before the attempt the connection was down
  cases hbefore.1

/-- A connection that was accepted takes itself for up, unless the loop call that brought the
deciding answer brought the end of the session after it. -/
theorem accepted_connect_up_iff
    (hopen : ((c.session w fuel).connect line).1.outcome = .ok ()) :
    let e := (c.session w fuel).connect line
    ∃ n earlier answer later code,
      w.exchanges line.env e.1.notes = c.dialling (.ok ()) :: (w.turns (c.dial w line.env).2 n ++
        [.loop handshakeSlice (earlier ++ .answered answer :: later) code]) ∧
      answer.failure = false ∧ (∀ event ∈ later, event.answer? = none) ∧
      (e.2.link.connected = true ↔ ∀ reason, .disconnected reason ∉ later) := by
  intro e
  obtain ⟨xs, hanswer, hnoted⟩ := request_replies (c := c) (w := w) fuel .connect line
  change Answer c _ _ e.1.outcome xs e.2.link.connected at hanswer
  have hopening : Opening c w fuel line.env e.1.outcome (w.exchanges line.env e.1.notes) :=
    session_opening c w fuel line
  have hok : e.1.outcome = .ok () := hopen
  rw [hok] at hanswer hopening
  obtain ⟨k, hverdict, hcalls⟩ := hopening.of_ok
  obtain ⟨events, code, hturn⟩ : ∃ events code,
      w.turn (c.dial w line.env).2 k = .loop handshakeSlice events code := ⟨_, _, rfl⟩
  rw [hturn] at hverdict hcalls
  obtain ⟨answer, hlast, haccepted⟩ := verdict?_ok hverdict
  obtain ⟨earlier, later, rfl, hlater⟩ := lastAnswer?_eq_some hlast
  refine ⟨k, earlier, answer, later, code, hcalls, haccepted, hlater, ?_⟩
  obtain rfl : w.exchanges line.env e.1.notes = xs := hnoted.exchanges
  rw [hcalls] at hanswer
  generalize line.link.connected = before, e.2.link.connected = up at hanswer ⊢
  cases hanswer
  -- the deciding loop call is the last, and its answer hides all that came before
  rw [List.flatMap_append, List.flatMap_singleton, standing_append]
  exact (standing_answered _ earlier answer hlater).trans (and_iff_right haccepted)

/-- A network that accepts a connection and loses it in the same loop call. -/
def fleeting : Line (NetworkRehearsal Rat) where
  env :=
    { script :=
        { loops :=
            [{ events :=
                 [.answered ⟨"Success", false⟩, .disconnected ⟨"Unspecified error", true⟩]
               code := 7 }] }
      now := 0 }

/-- The attempt to connect ends well, and leaves the connection down. -/
theorem fleeting_acceptance_leaves_down :
    let e := (impatient.session scripted 9).connect fleeting
    e.1.outcome = .ok () ∧ e.2.link.connected = false := by
  decide +kernel

/-- The deciding loop call of that attempt brought the end of the session after the answer. -/
theorem fleeting_acceptance_ends_down :
    ((impatient.session scripted 9).connect fleeting).1.outcome = .ok () ∧
      ∃ n earlier answer later code,
        scripted.exchanges fleeting.env ((impatient.session scripted 9).connect fleeting).1.notes =
          impatient.dialling (.ok ()) ::
            (scripted.turns (impatient.dial scripted fleeting.env).2 n ++
              [.loop handshakeSlice (earlier ++ .answered answer :: later) code]) ∧
        answer.failure = false ∧ ¬∀ reason, .disconnected reason ∉ later := by
  have hopen : ((impatient.session scripted 9).connect fleeting).1.outcome = .ok () := by
    decide +kernel
  have hdown : ((impatient.session scripted 9).connect fleeting).2.link.connected ≠ true := by
    decide +kernel
  obtain ⟨n, earlier, answer, later, code, hcalls, haccepted, -, hup⟩ :=
    accepted_connect_up_iff hopen
  exact ⟨hopen, n, earlier, answer, later, code, hcalls, haccepted, fun hgoes =>
    hdown (hup.mpr hgoes)⟩

/-! ## §3 Losses -/

/-- The library refuses a request because there is no connection. -/
def RefusedAtOnce (r : Request τ) (calls : List (Exchange τ)) : Prop :=
  (∃ topic payload qos id, r = .publish topic payload qos ∧
    calls = [.publish topic payload qos resultNoConnection id]) ∨
  ∃ topic qos id, r = .subscribe topic qos ∧
    calls = [.subscribe topic qos resultNoConnection id]

/-- A loop call failed, which put the connection down. -/
structure LostInLoop (c : Connection τ) (error : ConnectError) (calls : List (Exchange τ))
    (up : Bool) : Prop where
  reported : ∃ reason, error = .lostInLoop c.client c.broker reason
  looped : ∃ x ∈ calls, x.isLoop = true
  down : up = false

omit [Seconds τ] in
theorem LostInLoop.after {c : Connection τ} {error : ConnectError} {calls : List (Exchange τ)}
    {up : Bool} (h : LostInLoop c error calls up) (earlier : List (Exchange τ)) :
    LostInLoop c error (earlier ++ calls) up := by
  obtain ⟨x, hx, hloop⟩ := h.looped
  exact ⟨h.reported, ⟨x, List.mem_append_right earlier hx, hloop⟩, h.down⟩

/-- How a request reports a loss, and how the connection stands then: the library refuses it at
once, which leaves the connection as it was, or a loop call fails. -/
inductive Loss (c : Connection τ) (before : Bool) (r : Request τ) :
    ConnectError → List (Exchange τ) → Bool → Prop
  | refused {calls} : RefusedAtOnce r calls →
    Loss c before r (.lost c.client c.broker) calls before
  | inLoop {error calls up} : LostInLoop c error calls up → Loss c before r error calls up

variable {before up : Bool} {calls : List (Exchange τ)} {error : ConnectError}

omit [Seconds τ] in
/-- A request that the library refuses at once makes no loop call. -/
theorem RefusedAtOnce.not_looped {r : Request τ} (h : RefusedAtOnce r calls) :
    ¬∃ x ∈ calls, x.isLoop = true := by
  rintro ⟨x, hx, hloop⟩
  rcases h with ⟨_, _, _, _, -, rfl⟩ | ⟨_, _, _, -, rfl⟩ <;>
    obtain rfl := List.mem_singleton.mp hx <;> cases hloop

omit [Seconds τ] in
/-- A loss leaves a connection up that was up if and only if the library refused the request. -/
theorem Loss.up_iff {r : Request τ} (h : Loss c before r error calls up) :
    up = true ↔ before = true ∧ RefusedAtOnce r calls := by
  cases h with
  | refused hrefused => exact (and_iff_left hrefused).symm
  | inLoop hlost =>
    rw [hlost.down]
    exact ⟨nofun, fun hup => absurd hlost.looped hup.2.not_looped⟩

theorem Answer.publish_loss {topic : String} {payload : Bytes} {qos : Int}
    (h : Answer c before (.publish topic payload qos) (.error (.fault (.connect error))) calls up) :
    Loss c before (.publish topic payload qos) error calls up := by
  generalize hend : (.error (.fault (.connect error)) : Except Stop Unit) = outcome at h
  cases h with
  | published =>
    unfold publishOutcome at hend
    split at hend
    · next hcode =>
      cases hend
      exact .refused (.inl ⟨_, _, _, _, rfl, by rw [hcode]⟩)
    · split at hend <;> cases hend

theorem Answer.pump_loss {timeout : τ}
    (h : Answer c before (.pump timeout) (.error (.fault (.connect error))) calls up) :
    LostInLoop c error calls up := by
  generalize hend : (.error (.fault (.connect error)) : Except Stop Unit) = outcome at h
  cases h with
  | pumped =>
    unfold pumpOutcome at hend
    split at hend
    · next hcode =>
      cases hend
      refine ⟨⟨_, rfl⟩, ⟨_, List.mem_singleton_self _, rfl⟩, ?_⟩
      rw [Exchange.pumpSigns, if_neg hcode, standing_append]
      rfl
    · cases hend

/-- A wait for the answer to a subscription reports a loss only if a loop call fails. -/
theorem awaitGrant_loss {topic : String} {id : Int} {deadline : τ}
    {s t : Traced (Note τ) (Line σ)}
    (hrun : Action.runFrom (awaitGrant c w topic id deadline fuel) s =
      (.error (.fault (.connect error)), t)) :
    ∃ loops, Along c w s loops t ∧ LostInLoop c error loops t.state.link.connected := by
  induction fuel generalizing s with
  | zero => cases hrun
  | succ fuel ih =>
    rw [awaitGrant] at hrun
    simp only [Action.runFrom_bind (x := Traced.current), Traced.runFrom_current] at hrun
    cases hgrants : s.state.link.grants.lookup id with
    | some codes =>
      rw [hgrants] at hrun
      cases hrun
    | none =>
      simp only [hgrants, Action.runFrom_bind (x := now w), runFrom_now, Action.runFrom_ite] at hrun
      split at hrun
      · cases hrun
      · obtain ⟨events, code, halong, hanswer⟩ :=
          pump_answered (c := c) (w := w) handshakeSlice s
        rw [Action.runFrom_bind] at hrun
        generalize Action.runFrom (pump c w handshakeSlice) s = e at halong hanswer hrun
        obtain ⟨outcome, u⟩ := e
        cases outcome with
        | error stop =>
          cases hrun
          exact ⟨_, halong, hanswer.pump_loss⟩
        | ok _ =>
          obtain ⟨loops, hloops, hlost⟩ := ih hrun
          exact ⟨_, halong.trans hloops, hlost.after _⟩

theorem subscribe_loss {topic : String} {qos : Int} {s t : Traced (Note τ) (Line σ)}
    (hrun : Action.runFrom (subscribe c w topic qos fuel) s =
      (.error (.fault (.connect error)), t)) :
    ∃ calls, Along c w s calls t ∧
      Loss c s.state.link.connected (.subscribe topic qos) error calls t.state.link.connected := by
  let answer := w.network.subscribe topic qos s.state.env
  let met := called w (.subscribe topic qos) answer.2 s
  have halong : Along c w s [.subscribe topic qos answer.1.1 answer.1.2] met :=
    .of_noted (.call rfl) rfl
  have hanswer : w.network.subscribe topic qos s.state.env = answer := rfl
  simp only [subscribe, Action.runFrom_bind (x := call _ _ _), call_eq, hanswer,
    Action.runFrom_ite, Action.runFrom_bind (x := Action.fail _), Action.runFrom_fail] at hrun
  split at hrun
  · next hcode =>
    cases hrun
    exact ⟨_, halong, .refused (.inr ⟨_, _, _, rfl, by rw [hcode]⟩)⟩
  · split at hrun
    · cases hrun
    · simp only [Action.runFrom_bind, runFrom_now] at hrun
      split at hrun
      · next codes u hgrant => split at hrun <;> cases hrun
      · next stop u hgrant =>
        cases hrun
        obtain ⟨loops, hloops, hlost⟩ := awaitGrant_loss hgrant
        exact ⟨_, halong.trans hloops, .inLoop (hlost.after _)⟩

/-- A request on an open session that ends in a connection error reports a loss. -/
theorem request_loss {r : Request τ} (hwork : r.isWork = true)
    (hlost : ((c.session w fuel).answer r line).1.outcome = .error (.fault (.connect error))) :
    let e := (c.session w fuel).answer r line
    Loss c line.link.connected r error (w.exchanges line.env e.1.notes) e.2.link.connected := by
  intro e
  obtain ⟨xs, hanswer, hnoted⟩ := request_replies (c := c) (w := w) fuel r line
  obtain rfl : w.exchanges line.env e.1.notes = xs := hnoted.exchanges
  rw [hlost] at hanswer
  cases r with
  | connect => cases hwork
  | disconnect => cases hwork
  | publish topic payload qos => exact hanswer.publish_loss
  | pump timeout => exact .inLoop hanswer.pump_loss
  | subscribe topic qos =>
    have hend : Action.runFrom (subscribe c w topic qos fuel) { state := line } =
        (.error (.fault (.connect error)),
          (Action.runFrom (subscribe c w topic qos fuel) { state := line }).2) := by
      rw [← hlost]
      exact (unvalued_unit _).symm
    obtain ⟨calls, halong, hloss⟩ := subscribe_loss hend
    rw [← halong.reply] at hloss
    exact hloss

/-- A connection is closed without a call of the library if and only if it takes itself for down. -/
theorem disconnect_silent_iff (line : Line σ) :
    w.exchanges line.env ((c.session w fuel).disconnect line).1.notes = [] ↔
      line.link.connected = false := by
  obtain ⟨xs, hanswer, hnoted⟩ := request_replies (c := c) (w := w) fuel .disconnect line
  have hcalls : w.exchanges line.env ((c.session w fuel).disconnect line).1.notes = xs :=
    hnoted.exchanges
  rw [hcalls]
  generalize line.link.connected = before at hanswer ⊢
  generalize (((c.session w fuel).answer .disconnect line).2).link.connected = up at hanswer
  generalize ((c.session w fuel).answer .disconnect line).1.outcome = outcome at hanswer
  cases hanswer with
  | closed => exact ⟨nofun, nofun⟩
  | idle => exact ⟨fun _ => rfl, fun _ => rfl⟩

omit [Seconds τ] in
theorem Loss.message {r : Request τ} (h : Loss c before r error calls up) :
    ∃ rest, error.message = c.client ++ " lost its connection to " ++ c.broker.text ++ rest := by
  cases h with
  | refused => exact ⟨"", String.append_empty.symm⟩
  | inLoop hlost =>
    obtain ⟨reason, rfl⟩ := hlost.reported
    exact ⟨": " ++ reason, String.append_assoc⟩

/-- A request on an open session that ends in a connection error says that the connection is lost.
Then the connection takes itself for down, and is closed without a call of the library, unless it
was up and the library refused the request at once. -/
theorem reported_loss_up_iff {r : Request τ} (hwork : r.isWork = true)
    (hlost : ((c.session w fuel).answer r line).1.outcome = .error (.fault (.connect error))) :
    let e := (c.session w fuel).answer r line
    (∃ rest, error.message = c.client ++ " lost its connection to " ++ c.broker.text ++ rest) ∧
      (e.2.link.connected = true ↔
        line.link.connected = true ∧ RefusedAtOnce r (w.exchanges line.env e.1.notes)) ∧
      (w.exchanges e.2.env ((c.session w fuel).disconnect e.2).1.notes = [] ↔
        e.2.link.connected = false) := by
  intro e
  have hloss := request_loss hwork hlost
  exact ⟨hloss.message, hloss.up_iff, disconnect_silent_iff e.2⟩

/-- A network that accepts a connection, and has none when something is to be published. -/
def hollow : Line (NetworkRehearsal Rat) where
  env :=
    { script :=
        { loops := [{ events := [.answered ⟨"Success", false⟩] }]
          sends := [{ code := resultNoConnection }] }
      now := 0 }

/-- The connection after it was accepted there. -/
def opened : Line (NetworkRehearsal Rat) := ((impatient.session scripted 9).connect hollow).2

/-- The publish reports the loss, and leaves the connection up: it is closed by two calls of the
library. -/
theorem refused_publish_leaves_up :
    let e := (impatient.session scripted 9).publish "bench" [65] 1 opened
    let closing :=
      scripted.exchanges e.2.env ((impatient.session scripted 9).disconnect e.2).1.notes
    e.1.outcome = .error (.fault (.connect (.lost impatient.client impatient.broker))) ∧
      e.2.link.connected = true ∧ closing.length = 2 := by
  decide +kernel

/-- The library refused that publish at once. -/
theorem refused_publish_is_at_once :
    ((impatient.session scripted 9).publish "bench" [65] 1 opened).1.outcome =
        .error (.fault (.connect (.lost impatient.client impatient.broker))) ∧
      RefusedAtOnce (.publish "bench" [65] 1) (scripted.exchanges opened.env
        ((impatient.session scripted 9).publish "bench" [65] 1 opened).1.notes) := by
  have hlost : ((impatient.session scripted 9).answer (.publish "bench" [65] 1) opened).1.outcome =
      .error (.fault (.connect (.lost impatient.client impatient.broker))) := by decide +kernel
  have hup : ((impatient.session scripted 9).answer
      (.publish "bench" [65] 1) opened).2.link.connected = true := by decide +kernel
  exact ⟨hlost, ((reported_loss_up_iff rfl hlost).2.1.mp hup).2⟩

end Connection

end BrokerLoad
