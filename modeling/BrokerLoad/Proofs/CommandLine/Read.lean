import BrokerLoad.CommandLine.Settings
import BrokerLoad.Proofs.Contract
import BrokerLoad.Proofs.Number.Written

/-!
# Values that come from a command line

Whatever the arguments are, a value of a parsed command line was read from a text, or stands for a
flag or for an empty value. Each step of the parser keeps this. So what holds of every value that can
be read holds of all values of a command line; an integer on it can be written again.

## Main definitions

* `Value.Read`: a value that a command line can give.

## Main statements

* `Command.read_of_parse`: the values of a parsed command line.
* `Parsed.isWritable_of_integer`: an integer from a command line can be written.
-/

namespace BrokerLoad.CommandLine

/-- A value that a command line can give: that of a flag, an empty one, or one that was read. -/
inductive Value.Read : Value → Prop where
  | on : Read .on
  | empty : Read .empty
  | given {title : String} {kind : Kind} {text : String} {v : Value}
      (h : readValue title kind text = .ok v) : Read v

/-- All values that were read so far can come from a command line. -/
def Progress.Read (p : Progress) : Prop := ∀ e ∈ p.values, e.2.Read

variable {p q : Progress} {s : Switch}

/-! ## §1 Steps -/

theorem complain_ok {α : Type} {command : String} {e : Except Complaint α} {a : α}
    (h : complain command e = .ok a) : e = .ok a := by
  cases e with
  | error complaint => cases h
  | ok b => exact congrArg Except.ok (Except.ok.inj h)

namespace Progress.Read

/-- One more value. -/
theorem cons (hp : p.Read) {key : String} {v : Value} (hv : v.Read) :
    ∀ e ∈ (key, v) :: p.values, e.2.Read := List.forall_mem_cons.mpr ⟨hv, hp⟩

theorem give (hp : p.Read) {value : String} (h : p.give s value = .ok q) : q.Read := by
  obtain ⟨v, hread, hq⟩ := exists_of_bind_ok h
  obtain rfl := Except.ok.inj hq
  exact hp.cons (.given hread)

theorem giveAttached (hp : p.Read) {value : String} (h : p.giveAttached s value = .ok q) :
    q.Read := by
  unfold Progress.giveAttached at h
  split at h
  · obtain rfl := Except.ok.inj h
    exact hp.cons .empty
  · exact hp.give h

theorem raise {flags : List Switch} (hp : p.Read) (h : p.raise flags = .ok q) : q.Read := by
  induction flags generalizing p with
  | nil =>
    obtain rfl := Except.ok.inj h
    exact hp
  | cons s rest ih =>
    unfold Progress.raise at h
    split at h
    · cases h
    · exact ih (p := { p with values := (s.key, .on) :: p.values }) (hp.cons .on) h

theorem take (hp : p.Read) {text : String} (h : p.take text = .ok q) : q.Read := by
  unfold Progress.take at h
  split at h
  · obtain rfl := Except.ok.inj h
    exact hp
  · dsimp only at h
    split at h
    · obtain rfl := Except.ok.inj h
      exact hp.cons .empty
    · obtain ⟨v, hread, hq⟩ := exists_of_bind_ok h
      obtain rfl := Except.ok.inj hq
      exact hp.cons (.given hread)

theorem mark (hp : p.Read) (followed : Bool) : (p.mark followed).Read := by
  unfold Progress.mark
  split
  · exact hp
  · split <;> exact hp

theorem takeSwitch {c : Command} {spelling : String} {attached : Option (List Char)}
    (hp : p.Read) (h : takeSwitch c p s spelling attached = .ok q) : q.Read := by
  obtain ⟨⟨flags, last⟩, _, h⟩ := exists_of_bind_ok h
  obtain ⟨raised, hraise, h⟩ := exists_of_bind_ok h
  have hraised := hp.raise hraise
  -- the switch that ends the row may wait for its value, or have it attached
  match last, h with
  | none, h =>
    obtain rfl := Except.ok.inj h
    exact hraised
  | some (t, none), h =>
    obtain rfl := Except.ok.inj h
    exact hraised
  | some (t, some value), h => exact hraised.giveAttached (complain_ok h)

/-! ## §2 The arguments in turn -/

theorem takeTokens {c : Command} {tokens : List Token} (hp : p.Read)
    (h : takeTokens c p tokens = .ok q) : q.Read := by
  induction tokens generalizing p with
  | nil =>
    unfold CommandLine.takeTokens at h
    split at h
    · cases complain_ok h
    · obtain rfl := Except.ok.inj h
      exact hp
  | cons token rest ih =>
    unfold CommandLine.takeTokens at h
    split at h
    · obtain ⟨given, hgive, h⟩ := exists_of_bind_ok h
      exact ih (hp.give (complain_ok hgive)) h
    · cases complain_ok h
    · split at h
      · obtain rfl := Except.ok.inj h
        exact hp
      · obtain ⟨taken, htake, h⟩ := exists_of_bind_ok h
        exact ih (hp.take (complain_ok htake)) h
    · split at h
      · obtain rfl := Except.ok.inj h
        exact hp
      · exact ih (hp.mark _) h
    · exact ih (p := { p with extras := p.extras ++ [token.source], afterOperand := false }) hp h
    · obtain ⟨taken, htake, h⟩ := exists_of_bind_ok h
      exact ih (hp.takeSwitch htake) h

end Progress.Read

/-! ## §3 Command lines -/

variable {c : Command} {arguments : List String} {parsed : Parsed}

/-- The values of a parsed command line. -/
theorem Command.read_of_parse (h : c.parse arguments = .ok parsed) :
    ∀ e ∈ parsed.values, e.2.Read := by
  obtain ⟨p, htake, hfinish⟩ := exists_of_bind_ok h
  obtain ⟨tokens, _, htake⟩ := exists_of_bind_ok htake
  obtain ⟨q, htokens, htake⟩ := exists_of_bind_ok htake
  have hread : q.Read := Progress.Read.takeTokens (fun _ hnone => by cases hnone) htokens
  -- nothing may be missing, and nothing may be left over
  dsimp only at htake
  generalize (if (c.hasModes && q.mode.isNone) = true then [modeKey]
    else q.missing.map (·.key)) = missing at htake
  split at htake
  · obtain rfl := Except.ok.inj htake
    unfold finish at hfinish
    split at hfinish
    · obtain rfl := Except.ok.inj hfinish
      exact hread
    · cases complain_ok hfinish
  · cases complain_ok htake

theorem Parsed.read_of_value? (h : c.parse arguments = .ok parsed) {key : String} {v : Value}
    (hv : parsed.value? key = some v) : v.Read := by
  obtain ⟨before, after, hvalues, _⟩ := List.lookup_eq_some_iff.mp hv
  refine Command.read_of_parse h (key, v) ?_
  rw [hvalues]
  exact List.mem_append_right _ List.mem_cons_self

/-- An integer that was read from a value can be written. -/
theorem Value.Read.isWritable {n : Int} (h : (Value.integer n).Read) : isWritable n = true := by
  cases h with
  | @given title kind text _ hread =>
    unfold readValue at hread
    split at hread
    · cases hread
    · cases hread
    · cases hread
    · split at hread
      · next hinteger =>
        cases hread
        exact isWritable_of_readInteger hinteger
      · cases hread
    · split at hread
      · next hinteger =>
        split at hread
        · cases hread
          exact isWritable_of_readInteger hinteger
        · cases hread
      · cases hread
    · split at hread <;> cases hread

/-- An integer from a command line can be written. -/
theorem Parsed.isWritable_of_integer (h : c.parse arguments = .ok parsed) {key : String}
    {default n : Int} (hdefault : isWritable default = true)
    (hn : parsed.integer key default = some n) : isWritable n = true := by
  unfold Parsed.integer at hn
  split at hn
  · next m hvalue =>
    obtain rfl := Option.some.inj hn
    exact (Parsed.read_of_value? h hvalue).isWritable
  · cases hn
  · obtain rfl := Option.some.inj hn
    exact hdefault

theorem Parsed.isWritable_of_count (h : c.parse arguments = .ok parsed) {key : String}
    {default n : Int} (hdefault : isWritable default = true)
    (hn : parsed.count key default = .ok n) : isWritable n = true := by
  unfold Parsed.count needed at hn
  split at hn
  · next m hinteger =>
    obtain rfl := Except.ok.inj hn
    exact Parsed.isWritable_of_integer h hdefault hinteger
  · cases hn

end BrokerLoad.CommandLine
