import BrokerLoad.CommandLine.Parse
import Mathlib.Data.List.Basic

/-!
# Arguments that can be values

A switch takes the argument that follows it as its value, whatever that says, unless it was sorted
as something else than a plain argument. Here that is decided by the argument alone: one that starts
with a minus sign, and is longer than that, reads as an option if it shortens a long spelling,
begins with a short one, or is neither a negative number nor a text with a blank. The marker is no
value either.

## Main definitions

* `readsAsOption`: whether an argument cannot be a value.
* `Command.readFrom`: reads arguments when some have been read.
* `Assignment`: a switch with the text of its value.

## Main statements

* `sortArgument_plain_iff`: all other arguments are plain, and only those.
* `readFrom_assignments`: a row of switches is read, if every value is plain.
* `readFrom_assignments_option`: it is refused, if a value reads as an option.
-/

namespace BrokerLoad.CommandLine

/-! ## §1 Sorting -/

/-- What stands in front of the first equals sign, or all of the text. -/
def nameOf (text : List Char) : List Char := ((cutFirst? '=' text).map Prod.fst).getD text

/-- Whether a text names a switch: with two leading minus signs it shortens a long spelling, with
one it begins with a short spelling. -/
def namesSwitch (switches : List Switch) (text : List Char) : Bool :=
  match text with
  | '-' :: '-' :: _ => (spellingsOf switches).any fun m => (nameOf text).isPrefixOf m.1.toList
  | _ => (spellingsOf switches).any fun m => m.1.toList = text.take 2

/-- Whether an argument is sorted as an option or as the marker. -/
def readsAsOption (switches : List Switch) (argument : String) : Bool :=
  match argument.toList with
  | '-' :: c :: rest =>
    argument == "--" || namesSwitch switches ('-' :: c :: rest) ||
      !(looksNegative ('-' :: c :: rest) || ('-' :: c :: rest).contains ' ')
  | _ => false

/-- Whether a text can be a spelling: a minus sign and a letter, or two minus signs and a word. -/
def isSpelling (text : String) : Bool :=
  match text.toList with
  | '-' :: '-' :: rest => !rest.isEmpty
  | ['-', _] => true
  | _ => false

/-- Switches whose spellings can all be spellings. -/
def Spelled (switches : List Switch) : Prop := ∀ m ∈ spellingsOf switches, isSpelling m.1 = true

instance (switches : List Switch) : Decidable (Spelled switches) :=
  inferInstanceAs (Decidable (∀ m ∈ spellingsOf switches, isSpelling m.1 = true))

variable {switches : List Switch}

theorem cutFirst?_eq_some {mark : Char} {s a b : List Char} (h : cutFirst? mark s = some (a, b)) :
    s = a ++ mark :: b := by
  induction s generalizing a with
  | nil => cases h
  | cons c rest ih =>
    by_cases hc : c = mark
    · simp only [cutFirst?, hc, if_true, Option.some.injEq, Prod.mk.injEq] at h
      obtain ⟨rfl, rfl⟩ := h
      rw [hc]
      rfl
    · simp only [cutFirst?, hc, if_false, Option.map_eq_some_iff] at h
      obtain ⟨⟨front, back⟩, hfront, hpair⟩ := h
      cases hpair
      rw [ih hfront]
      rfl

/-- A short spelling is as long as its beginning. -/
theorem short_of_isSpelling {spelling : String} (h : isSpelling spelling = true) {c : Char}
    {rest : List Char} (hc : c ≠ '-') (hs : spelling.toList = '-' :: c :: rest) : rest = [] := by
  unfold isSpelling at h
  rw [hs] at h
  split at h
  · rename_i heq
    exact absurd (List.cons.inj (List.cons.inj heq).2).1 hc
  · rename_i heq
    exact (List.cons.inj (List.cons.inj heq).2).2
  · cases h

theorem namesSwitch_short {c : Char} (hc : c ≠ '-') (rest : List Char) :
    namesSwitch switches ('-' :: c :: rest) =
      (spellingsOf switches).any fun m => m.1.toList = ['-', c] := by
  unfold namesSwitch
  split
  · rename_i heq
    exact absurd (List.cons.inj (List.cons.inj heq).2).1 hc
  · rfl

/-- A text has a meaning only if it names a switch. -/
theorem meanings_eq_nil (hspelled : Spelled switches) (c : Char)
    (rest : List Char) :
    meanings switches ('-' :: c :: rest) = [] ↔
      namesSwitch switches ('-' :: c :: rest) = false := by
  by_cases hc : c = '-'
  · subst hc
    rw [meanings, namesSwitch, List.any_eq_false]
    cases hcut : cutFirst? '=' ('-' :: '-' :: rest) <;>
      simp [nameOf, hcut, List.filterMap_eq_nil_iff]
  · have hmeanings : meanings switches ('-' :: c :: rest) =
        (spellingsOf switches).filterMap fun m =>
          if m.1.toList = ['-', c] then some (.switch m.2 m.1 (some rest))
          else if ('-' :: c :: rest).isPrefixOf m.1.toList then some (.switch m.2 m.1 none)
          else none := by
      unfold meanings
      split
      · rename_i heq
        exact absurd (List.cons.inj (List.cons.inj heq).2).1 hc
      · rfl
    rw [hmeanings, namesSwitch_short hc, List.filterMap_eq_nil_iff, List.any_eq_false]
    refine forall₂_congr fun m hm => ?_
    obtain ⟨spelling, s⟩ := m
    by_cases hshort : spelling.toList = ['-', c]
    · simp [hshort]
    · -- no short spelling is longer than the text
      have hprefix : ('-' :: c :: rest).isPrefixOf spelling.toList = false := by
        rw [Bool.eq_false_iff]
        intro h
        obtain ⟨more, hmore⟩ := List.isPrefixOf_iff_prefix.mp h
        have hnil : rest ++ more = [] := short_of_isSpelling (hspelled _ hm) hc hmore.symm
        rw [List.append_eq_nil_iff] at hnil
        rw [← hmore, hnil.1, hnil.2] at hshort
        exact hshort rfl
      simp [hshort, hprefix]

theorem nameOf_starts (text : List Char) : nameOf text <+: text := by
  unfold nameOf
  cases h : cutFirst? '=' text with
  | none => exact List.prefix_refl _
  | some pieces => exact ⟨'=' :: pieces.2, (cutFirst?_eq_some h).symm⟩

/-- A text that names no switch does not begin with a spelling that reaches to its name. -/
theorem lookup_of_namesSwitch (hspelled : Spelled switches) {c : Char}
    {rest name : List Char} (hnames : namesSwitch switches ('-' :: c :: rest) = false)
    (hname : name <+: '-' :: c :: rest) (hreach : nameOf ('-' :: c :: rest) <+: name) :
    (spellingsOf switches).lookup (String.ofList name) = none := by
  rw [List.lookup_eq_none_iff]
  intro m hm
  rw [bne_iff_ne]
  intro hspelling
  have htext : m.1.toList = name := by rw [← hspelling, String.toList_ofList]
  have hm' : isSpelling m.1 = true := hspelled m hm
  by_cases hc : c = '-'
  · subst hc
    rw [namesSwitch, List.any_eq_false] at hnames
    refine hnames m hm ?_
    rw [htext]
    exact List.isPrefixOf_iff_prefix.mpr hreach
  · rw [namesSwitch_short hc, List.any_eq_false] at hnames
    refine hnames m hm ?_
    obtain ⟨more, hmore⟩ := hname
    unfold isSpelling at hm'
    rw [htext] at hm'
    split at hm'
    · exact absurd (List.cons.inj (List.cons.inj hmore).2).1.symm hc
    · rw [htext, (List.cons.inj (List.cons.inj hmore).2).1]
      exact decide_eq_true rfl
    · cases hm'

/-- Every meaning of a text is a switch. -/
theorem plain_not_mem_meanings (text : List Char) : Shape.plain ∉ meanings switches text := by
  unfold meanings
  split
  · simp [List.mem_filterMap]
  · rw [List.mem_filterMap]
    rintro ⟨m, -, h⟩
    simp only at h
    split at h
    · simp at h
    · simp at h

/-- A text that names a switch is not plain. -/
theorem sortDashed_of_namesSwitch (hspelled : Spelled switches)
    {argument : String} {c : Char} {rest : List Char}
    (hargument : argument.toList = '-' :: c :: rest)
    (hnames : namesSwitch switches ('-' :: c :: rest) = true) :
    sortDashed switches argument ≠ .ok .plain := by
  have hmeanings : meanings switches argument.toList ≠ [] := by
    rw [hargument, ne_eq, meanings_eq_nil hspelled, hnames]
    exact Bool.noConfusion
  unfold sortDashed
  simp only
  split
  · rename_i shape hfull
    -- what is spelled in full is a switch
    intro h
    cases h
    split at hfull
    · cases hfull
    · simp [Option.bind_eq_some_iff] at hfull
  · split
    · rename_i meaning hone
      intro h
      cases h
      exact plain_not_mem_meanings argument.toList (hone ▸ List.mem_singleton_self _)
    · rename_i hnil
      exact absurd hnil hmeanings
    · nofun

/-- A text that names no switch is plain if it is a negative number or has a blank. -/
theorem sortDashed_of_not_namesSwitch (hspelled : Spelled switches)
    {argument : String} {c : Char} {rest : List Char}
    (hargument : argument.toList = '-' :: c :: rest)
    (hnames : namesSwitch switches ('-' :: c :: rest) = false) :
    sortDashed switches argument =
      if looksNegative ('-' :: c :: rest) || ('-' :: c :: rest).contains ' ' then .ok .plain
      else .ok .unknown := by
  have hwhole : (spellingsOf switches).lookup argument = none := by
    have h := lookup_of_namesSwitch hspelled hnames (List.prefix_refl _) (nameOf_starts _)
    rwa [← hargument, String.ofList_toList] at h
  have hname : ∀ name value, cutFirst? '=' ('-' :: c :: rest) = some (name, value) →
      (spellingsOf switches).lookup (String.ofList name) = none := by
    intro name value hcut
    have hnameOf : nameOf ('-' :: c :: rest) = name := by
      rw [nameOf, hcut]
      rfl
    exact lookup_of_namesSwitch hspelled hnames (hnameOf ▸ nameOf_starts _)
      (hnameOf ▸ List.prefix_refl _)
  have hmeanings : meanings switches ('-' :: c :: rest) = [] :=
    (meanings_eq_nil hspelled c rest).mpr hnames
  unfold sortDashed
  simp only [hwhole, hargument, hmeanings]
  cases hcut : cutFirst? '=' ('-' :: c :: rest) with
  | none => simp
  | some pieces =>
    obtain ⟨name, value⟩ := pieces
    simp [hname name value hcut]

/-- The arguments that do not read as options are plain, and only those. -/
theorem sortArgument_plain_iff (hspelled : Spelled switches)
    {argument : String} (hmarker : argument ≠ "--") :
    sortArgument switches argument = .ok .plain ↔ readsAsOption switches argument = false := by
  unfold sortArgument
  split
  · rename_i c rest hargument
    have hreads : readsAsOption switches argument =
        (namesSwitch switches ('-' :: c :: rest) ||
          !(looksNegative ('-' :: c :: rest) || ('-' :: c :: rest).contains ' ')) := by
      simp only [readsAsOption, hargument, beq_eq_false_iff_ne.mpr hmarker, Bool.false_or]
    rw [hreads]
    cases hnames : namesSwitch switches ('-' :: c :: rest) with
    | true =>
      simp [sortDashed_of_namesSwitch hspelled hargument hnames]
    | false =>
      rw [sortDashed_of_not_namesSwitch hspelled hargument hnames]
      cases looksNegative ('-' :: c :: rest) || ('-' :: c :: rest).contains ' ' <;> simp
  · rename_i hshort
    have hreads : readsAsOption switches argument = false := by
      unfold readsAsOption
      split
      · rename_i c rest hargument
        exact absurd hargument (hshort c rest)
      · rfl
    simp [hreads]

theorem sort_of_plain (hspelled : Spelled switches) {argument : String}
    (h : readsAsOption switches argument = false) :
    argument ≠ "--" ∧ sortArgument switches argument = .ok .plain := by
  have hmarker : argument ≠ "--" := by
    rintro rfl
    cases h
  exact ⟨hmarker, (sortArgument_plain_iff hspelled hmarker).mpr h⟩

/-- What begins with something else than a minus sign is no option. -/
theorem readsAsOption_of_head {argument : String} {c : Char} {rest : List Char}
    (h : argument.toList = c :: rest) (hc : c ≠ '-') : readsAsOption switches argument = false := by
  unfold readsAsOption
  rw [h]
  split
  · rename_i heq
    exact absurd (List.cons.inj heq).1 hc
  · rfl

/-- Arguments that do not read as options are plain. -/
theorem sortArguments_plain (hspelled : Spelled switches)
    {arguments : List String} (h : ∀ a ∈ arguments, readsAsOption switches a = false) :
    sortArguments switches arguments = .ok (arguments.map (⟨·, .plain⟩)) := by
  induction arguments with
  | nil => rfl
  | cons a rest ih =>
    obtain ⟨hmarker, hplain⟩ := sort_of_plain hspelled (h a List.mem_cons_self)
    rw [sortArguments, if_neg hmarker, hplain, ih fun b hb => h b (List.mem_cons_of_mem a hb)]
    rfl

/-! ## §2 Reading -/

/-- Reads arguments when some have been read. -/
def Command.readFrom (c : Command) (p : Progress) (arguments : List String) :
    Except Refusal Progress := do
  takeTokens c p (← complain c.name (sortArguments c.switches arguments))

/-- A switch with the text of its value, and the value. -/
structure Assignment where
  switch : Switch
  spelling : String
  text : String
  value : Value

/-- The two arguments of an assignment. -/
def Assignment.arguments (a : Assignment) : List String := [a.spelling, a.text]

/-- An assignment of a command: its spelling is one of its switch, which takes the value. -/
structure Assignment.Fits (c : Command) (a : Assignment) : Prop where
  spelled : (spellingsOf c.switches).lookup a.spelling = some a.switch
  takesValue : a.switch.kind.takesValue = true
  read : readValue a.switch.title a.switch.kind a.text = .ok a.value

/-- The progress with some more values. -/
def Progress.withValues (p : Progress) (values : List (String × Value)) : Progress :=
  { p with values := values ++ p.values }

variable {c : Command} {p : Progress} {a : Assignment}

/-- All the arguments of a command are read when none have been. -/
theorem Command.takeAll_eq (c : Command) (arguments : List String) :
    c.takeAll arguments = (do
      let p ← c.readFrom { missing := c.operands } arguments
      let missing := if c.hasModes && p.mode.isNone then [modeKey] else p.missing.map (·.key)
      if missing.isEmpty then return p
      else complain c.name (.error (.missing missing))) := by
  unfold Command.takeAll Command.readFrom
  cases complain c.name (sortArguments c.switches arguments) <;> rfl

/-- A spelling in full is sorted as its switch. -/
theorem Assignment.Fits.sorted (hspelled : Spelled c.switches)
    (h : a.Fits c) :
    a.spelling ≠ "--" ∧
      sortArgument c.switches a.spelling = .ok (.switch a.switch a.spelling none) := by
  have hwell : isSpelling a.spelling = true := by
    obtain ⟨before, after, hsplit, -⟩ := List.lookup_eq_some_iff.mp h.spelled
    refine hspelled (a.spelling, a.switch) ?_
    rw [hsplit]
    exact List.mem_append_right before List.mem_cons_self
  unfold isSpelling at hwell
  split at hwell
  · rename_i rest heq
    refine ⟨?_, by simp only [sortArgument, heq, sortDashed, h.spelled]⟩
    intro hmarker
    rw [hmarker] at heq
    cases heq
    cases hwell
  · rename_i d hd heq
    refine ⟨?_, by simp only [sortArgument, heq, sortDashed, h.spelled]⟩
    intro hmarker
    rw [hmarker] at heq
    cases heq
    exact hd rfl
  · cases hwell

/-- A switch waits for its value. -/
theorem Assignment.Fits.takeSwitch (h : a.Fits c) (p : Progress) :
    takeSwitch c p a.switch a.spelling none =
      .ok { p with expecting := some a.switch, afterOperand := false } := by
  simp only [CommandLine.takeSwitch, unfoldSwitch, h.takesValue, if_true, complain]
  rfl

/-- A switch with a plain value is read. -/
theorem Assignment.Fits.readFrom (hspelled : Spelled c.switches)
    (h : a.Fits c) (hplain : readsAsOption c.switches a.text = false)
    (hexpecting : p.expecting = none) (hoperand : p.afterOperand = false) (rest : List String) :
    c.readFrom p (a.arguments ++ rest) =
      c.readFrom (p.withValues [(a.switch.key, a.value)]) rest := by
  obtain ⟨hmarker, htext⟩ := sort_of_plain hspelled hplain
  obtain ⟨hspelling, hswitch⟩ := h.sorted hspelled
  have hsorted : sortArguments c.switches (a.arguments ++ rest) =
      (sortArguments c.switches rest).map fun tokens =>
        ⟨a.spelling, .switch a.switch a.spelling none⟩ :: ⟨a.text, .plain⟩ :: tokens := by
    simp only [Assignment.arguments, List.cons_append, List.nil_append, sortArguments,
      if_neg hspelling, if_neg hmarker, hswitch, htext]
    cases sortArguments c.switches rest <;> rfl
  unfold Command.readFrom
  rw [hsorted]
  cases sortArguments c.switches rest with
  | error complaint => rfl
  | ok tokens =>
    obtain ⟨values, extras, missing, expecting, afterOperand, holdsMarker, mode⟩ := p
    subst hexpecting hoperand
    simp only [Except.map, complain, bind, Except.bind, takeTokens, h.takeSwitch, Progress.give,
      h.read]
    rfl

/-- A switch that waits for its value takes nothing else than a plain argument. -/
theorem takeTokens_waiting {s : Switch} {token : Token} (hexpecting : p.expecting = some s)
    (hshape : token.shape ≠ .plain) (rest : List Token) :
    takeTokens c p (token :: rest) = .error (.usage ⟨c.name, .expectedValue s.title⟩) := by
  obtain ⟨source, shape⟩ := token
  cases shape with
  | plain => exact absurd rfl hshape
  | _ => simp only [takeTokens, hexpecting, complain]

/-- A switch whose value reads as an option is refused. -/
theorem Assignment.Fits.readFrom_option (hspelled : Spelled c.switches)
    (h : a.Fits c) (hoption : readsAsOption c.switches a.text = true)
    (hexpecting : p.expecting = none) (rest : List String) :
    ∃ complaint, c.readFrom p (a.arguments ++ rest) = .error (.usage ⟨c.name, complaint⟩) := by
  -- whatever the value was sorted as, the switch gets none
  have hrefused : ∀ shape tokens, shape ≠ Shape.plain →
      takeTokens c p (⟨a.spelling, .switch a.switch a.spelling none⟩ :: ⟨a.text, shape⟩ :: tokens) =
        .error (.usage ⟨c.name, .expectedValue a.switch.title⟩) := by
    intro shape tokens hshape
    rw [takeTokens]
    simp only [hexpecting, h.takeSwitch]
    exact takeTokens_waiting rfl hshape tokens
  obtain ⟨hspelling, hswitch⟩ := h.sorted hspelled
  simp only [Command.readFrom, Assignment.arguments, List.cons_append, List.nil_append,
    sortArguments, if_neg hspelling, hswitch]
  by_cases hmarker : a.text = "--"
  · rw [if_pos hmarker]
    exact ⟨_, hrefused .marker _ (by nofun)⟩
  · rw [if_neg hmarker]
    have hplain := (sortArgument_plain_iff hspelled hmarker).not.mpr (by rw [hoption]; nofun)
    cases hshape : sortArgument c.switches a.text with
    | error complaint => exact ⟨complaint, rfl⟩
    | ok shape =>
      cases sortArguments c.switches rest with
      | error complaint => exact ⟨complaint, rfl⟩
      | ok tokens =>
        refine ⟨_, hrefused shape tokens ?_⟩
        rintro rfl
        exact hplain hshape

/-- A row of switches is read, if every value is plain. -/
theorem readFrom_assignments (hspelled : Spelled c.switches)
    {row : List Assignment} (hfits : ∀ a ∈ row, a.Fits c)
    (hplain : ∀ a ∈ row, readsAsOption c.switches a.text = false)
    (hexpecting : p.expecting = none) (hoperand : p.afterOperand = false) (rest : List String) :
    c.readFrom p (row.flatMap Assignment.arguments ++ rest) =
      c.readFrom (p.withValues (row.map fun a => (a.switch.key, a.value)).reverse) rest := by
  induction row generalizing p with
  | nil => rfl
  | cons a row ih =>
    rw [List.flatMap_cons, List.append_assoc,
      (hfits a List.mem_cons_self).readFrom hspelled (hplain a List.mem_cons_self) hexpecting
        hoperand,
      ih (p := p.withValues [(a.switch.key, a.value)])
        (fun b hb => hfits b (List.mem_cons_of_mem a hb))
        (fun b hb => hplain b (List.mem_cons_of_mem a hb)) hexpecting hoperand]
    simp [Progress.withValues]

/-- A row of switches is refused, if a value reads as an option. -/
theorem readFrom_assignments_option (hspelled : Spelled c.switches)
    {row : List Assignment} (hfits : ∀ a ∈ row, a.Fits c)
    (hoption : ∃ a ∈ row, readsAsOption c.switches a.text = true)
    (hexpecting : p.expecting = none) (hoperand : p.afterOperand = false) (rest : List String) :
    ∃ complaint, c.readFrom p (row.flatMap Assignment.arguments ++ rest) =
      .error (.usage ⟨c.name, complaint⟩) := by
  induction row generalizing p with
  | nil =>
    obtain ⟨a, ha, -⟩ := hoption
    cases ha
  | cons a row ih =>
    rw [List.flatMap_cons, List.append_assoc]
    have hfit := hfits a List.mem_cons_self
    cases ha : readsAsOption c.switches a.text with
    | true => exact hfit.readFrom_option hspelled ha hexpecting _
    | false =>
      -- the first value is taken, so it is one of the others
      rw [hfit.readFrom hspelled ha hexpecting hoperand]
      refine ih (fun b hb => hfits b (List.mem_cons_of_mem a hb)) ?_ hexpecting hoperand
      obtain ⟨b, hb, hbo⟩ := hoption
      rcases List.mem_cons.mp hb with rfl | hb
      · rw [ha] at hbo
        cases hbo
      · exact ⟨b, hb, hbo⟩

/-- A plain argument in place of the mode word takes what follows it. -/
theorem readFrom_mode (hspelled : Spelled c.switches)
    (hmodes : c.hasModes = true) {word : String} {rest : List String}
    (hplain : ∀ a ∈ word :: rest, readsAsOption c.switches a = false)
    (hexpecting : p.expecting = none) :
    c.readFrom p (word :: rest) = .ok { p with mode := some (word, rest) } := by
  rw [Command.readFrom, sortArguments_plain hspelled hplain]
  simp only [complain, List.map_cons, bind, Except.bind, takeTokens, hexpecting, hmodes, if_true,
    List.map_map]
  rw [show ((fun t : Token => t.source) ∘ fun s : String => (⟨s, .plain⟩ : Token)) = id from rfl,
    List.map_id]

/-- A plain argument is taken for the next operand. -/
theorem readFrom_operand (hspelled : Spelled c.switches)
    (hmodes : c.hasModes = false) {text : String} {operand : Operand} {missing : List Operand}
    {value : Value} (hplain : readsAsOption c.switches text = false)
    (hmissing : p.missing = operand :: missing)
    (hread : readValue operand.key operand.kind text = .ok value) (hexpecting : p.expecting = none)
    (rest : List String) :
    c.readFrom p (text :: rest) =
      c.readFrom { p.withValues [(operand.key, value)] with
        missing, afterOperand := true, holdsMarker := false } rest := by
  obtain ⟨hmarker, hsort⟩ := sort_of_plain hspelled hplain
  simp only [Command.readFrom, sortArguments, if_neg hmarker, hsort]
  cases sortArguments c.switches rest with
  | error complaint => rfl
  | ok tokens =>
    have htake : p.take text = .ok { p.withValues [(operand.key, value)] with
        missing, afterOperand := true, holdsMarker := false } := by
      simp only [Progress.take, hmissing, decide_eq_false hmarker, Bool.false_and,
        Bool.false_eq_true, if_false, hread]
      rfl
    change takeTokens c p (⟨text, .plain⟩ :: tokens) = _
    simp only [takeTokens, hexpecting, hmodes, Bool.false_eq_true, if_false, htake]
    rfl

end BrokerLoad.CommandLine
