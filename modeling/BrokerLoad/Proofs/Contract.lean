import BrokerLoad.Action

/-!
# Contracts of actions

A contract of an action says in which states it may begin, what holds when it ends with a value, and
what holds when it stops early. Contracts compose along the sequence of actions, so that what a whole
program does follows from one contract for each of its parts.

## Main definitions

* `Action.Ends`: a judgement on how an action ended.
* `Action.Meets`: the contract of an action.
* `Action.Faulty`: the stops that are faults; running out of fuel is none of them.
* `FailsAs`: attempts that fail for some kind of reason only.

## Main statements

* `Action.Meets.bind`: two actions in a row.
* `Action.closing_run`: what a closing action does after its body.
-/

namespace BrokerLoad

namespace Action

variable {S α β : Type}

/-! ## §1 Judgements and contracts -/

/-- A judgement on how an action ended: `Q` after a value, `E` after an early stop. -/
def Ends (Q : α → S → Prop) (E : Stop → S → Prop) : Except Stop α × S → Prop
  | (.ok a, t) => Q a t
  | (.error stop, t) => E stop t

/-- From every state with `P` the action ends with a value and `Q`, or stops early and leaves `E`. -/
def Meets (P : S → Prop) (a : Action S α) (Q : α → S → Prop) (E : Stop → S → Prop) : Prop :=
  ∀ s, P s → Ends Q E (runFrom a s)

/-- The early stops that are faults, judged by `E`. -/
def Faulty (E : Fault → S → Prop) : Stop → S → Prop
  | .fault f, t => E f t
  | .outOfFuel, _ => False

theorem Ends.mono {Q Q' : α → S → Prop} {E E' : Stop → S → Prop} {e : Except Stop α × S}
    (h : Ends Q E e) (hQ : ∀ a t, Q a t → Q' a t) (hE : ∀ stop t, E stop t → E' stop t) :
    Ends Q' E' e := by
  obtain ⟨outcome, t⟩ := e
  cases outcome with
  | ok a => exact hQ a t h
  | error stop => exact hE stop t h

theorem Ends.of_ok {Q : α → S → Prop} {E : Stop → S → Prop} {e : Except Stop α × S} {a : α}
    (h : Ends Q E e) (he : e.1 = .ok a) : Q a e.2 := by
  obtain ⟨outcome, t⟩ := e
  subst he
  exact h

theorem Ends.of_error {Q : α → S → Prop} {E : Stop → S → Prop} {e : Except Stop α × S}
    {stop : Stop} (h : Ends Q E e) (he : e.1 = .error stop) : E stop e.2 := by
  obtain ⟨outcome, t⟩ := e
  subst he
  exact h

theorem Faulty.mono {E E' : Fault → S → Prop} (hE : ∀ f t, E f t → E' f t) (stop : Stop) (t : S)
    (h : Faulty E stop t) : Faulty E' stop t := by
  cases stop with
  | fault f => exact hE f t h
  | outOfFuel => exact h

namespace Meets

variable {P P' : S → Prop} {Q Q' : α → S → Prop} {E E' : Stop → S → Prop}

/-! ## §2 Contracts of the basic actions -/

theorem mono {a : Action S α} (h : Meets P a Q E) (hP : ∀ s, P' s → P s)
    (hQ : ∀ a t, Q a t → Q' a t) (hE : ∀ stop t, E stop t → E' stop t) : Meets P' a Q' E' :=
  fun s hs => (h s (hP s hs)).mono hQ hE

theorem of_eq {a : Action S α} (h : ∀ s, P s → Meets (· = s) a Q E) : Meets P a Q E :=
  fun s hs => h s hs s rfl

/-- What the states tell of other things is known at once. -/
theorem assuming {a : Action S α} {c : Prop} (hc : ∀ s, P s → c) (h : c → Meets P a Q E) :
    Meets P a Q E :=
  fun s hs => h (hc s hs) s hs

theorem pure {a : α} (h : ∀ s, P s → Q a s) : Meets P (pure a : Action S α) Q E :=
  fun s hs => h s hs

theorem fail {f : Fault} (h : ∀ s, P s → E (.fault f) s) : Meets P (fail f : Action S α) Q E :=
  fun s hs => h s hs

theorem ofExcept {e : Except Fault α} (hok : ∀ a s, e = .ok a → P s → Q a s)
    (herror : ∀ f s, e = .error f → P s → E (.fault f) s) :
    Meets P (ofExcept e : Action S α) Q E := by
  intro s hs
  cases e with
  | ok a => exact hok a s rfl hs
  | error f => exact herror f s rfl hs

/-! ## §3 Contracts of composed actions -/

/-- The second action begins with what the first one left. -/
theorem bind {R : β → S → Prop} {x : Action S β} {f : β → Action S α} (hx : Meets P x R E)
    (hf : ∀ b, Meets (R b) (f b) Q E) : Meets P (x >>= f) Q E := by
  intro s hs
  rw [runFrom_bind]
  have h := hx s hs
  cases hrun : runFrom x s with
  | mk outcome t =>
    rw [hrun] at h
    cases outcome with
    | ok b => exact hf b t h
    | error stop =>
      -- the second action does not run
      exact h

theorem and {E E' : Fault → S → Prop} {a : Action S α} (h : Meets P a Q (Faulty E))
    (h' : Meets P a Q' (Faulty E')) :
    Meets P a (fun x s => Q x s ∧ Q' x s) (Faulty fun f s => E f s ∧ E' f s) := by
  intro s hs
  have h1 := h s hs
  have h2 := h' s hs
  cases hrun : runFrom a s with
  | mk outcome t =>
    rw [hrun] at h1 h2
    cases outcome with
    | ok x => exact ⟨h1, h2⟩
    | error stop =>
      cases stop with
      | fault f => exact ⟨h1, h2⟩
      -- neither judgement allows this, so one of them is enough
      | outOfFuel => exact h1

theorem discard {R : S → Prop} {x : Action S α} (hx : Meets P x (fun _ => R) E) :
    Meets P (Functor.discard x) (fun _ => R) E := by
  intro s hs
  have h := hx s hs
  rw [runFrom_discard]
  cases hrun : runFrom x s with
  | mk outcome t =>
    rw [hrun] at h
    cases outcome with
    | ok _ => exact h
    | error stop => exact h

/-- A fault that is known becomes the answer to it; every other end stays. -/
theorem recover {E' : Stop → S → Prop} {body : Action S α} {handle : Fault → Option (Action S α)}
    (hbody : Meets P body Q E')
    (hanswer : ∀ f answer, handle f = some answer → Meets (E' (.fault f)) answer Q E)
    (hother : ∀ stop t, (∀ f, stop = .fault f → handle f = none) → E' stop t → E stop t) :
    Meets P (recover body handle) Q E := by
  intro s hs
  have h := hbody s hs
  simp only [Action.recover, runFrom_ofFunction]
  cases hrun : runFrom body s with
  | mk outcome t =>
    rw [hrun] at h
    cases outcome with
    | ok a => exact h
    | error stop =>
      cases stop with
      | outOfFuel =>
        -- running out of fuel is no fault, so there is no answer to it
        apply hother _ t _ h
        intro f hf
        cases hf
      | fault f =>
        cases hf : handle f with
        -- the answer begins in the state in which the body stopped
        | some answer =>
          simp only [hf]
          exact hanswer f answer hf t h
        -- a fault without an answer passes through
        | none =>
          simp only [hf]
          apply hother _ t _ h
          intro g hg
          cases hg
          exact hf

end Meets

/-! ## §4 Single runs -/

/-- A value is no lack of fuel. -/
theorem ok_ne_outOfFuel (a : α) : (.ok a : Except Stop α) ≠ .error .outOfFuel := nofun

/-- A fault is no lack of fuel. -/
theorem fault_ne_outOfFuel (f : Fault) : (.error (.fault f) : Except Stop α) ≠ .error .outOfFuel :=
  nofun

theorem mapError_ok (a : α) : (.ok a : Except Fault α).mapError Stop.fault = .ok a := rfl

theorem runFrom_ite (c : Prop) [Decidable c] (a b : Action S α) (s : S) :
    runFrom (if c then a else b) s = if c then runFrom a s else runFrom b s := by
  split <;> rfl

/-- Giving a value or stopping with a fault leaves the state as it is. -/
@[simp] theorem runFrom_ofExcept (e : Except Fault α) (s : S) :
    runFrom (ofExcept e) s = (e.mapError Stop.fault, s) := by
  cases e <;> rfl

/-- A body that runs out of fuel is not followed by the closing action. -/
theorem closing_outOfFuel {body : Action S α} {close : Action S Unit} {s t : S}
    (hbody : runFrom body s = (.error .outOfFuel, t)) :
    runFrom (closing body close) s = (.error .outOfFuel, t) := by
  simp only [closing, runFrom_ofFunction, hbody]

/-- A body that does not run out of fuel is followed by the closing action, and keeps its outcome
if that ends without a stop. -/
theorem closing_run {body : Action S α} {close : Action S Unit} {s t : S}
    {outcome : Except Stop α} (hbody : runFrom body s = (outcome, t))
    (hfuel : outcome ≠ .error .outOfFuel) :
    runFrom (closing body close) s =
      ((runFrom close t).1.bind fun _ => outcome, (runFrom close t).2) := by
  simp only [closing, runFrom_ofFunction, hbody]
  cases outcome with
  -- the value is kept until the closing action is done
  | ok a =>
    cases runFrom close t with
    | mk closed u => cases closed <;> rfl
  | error stop =>
    cases stop with
    | outOfFuel => exact absurd rfl hfuel
    | fault f =>
      -- a stop of the closing action takes the place of the fault
      cases runFrom close t with
      | mk closed u => cases closed <;> rfl

end Action

/-! ## §5 Attempts -/

/-- Two attempts in a row succeed through what the first one gave. -/
theorem exists_of_bind_ok {ε α β : Type} {x : Except ε α} {f : α → Except ε β} {b : β}
    (h : x >>= f = .ok b) : ∃ a, x = .ok a ∧ f a = .ok b := by
  cases x with
  | error e => cases h
  | ok a => exact ⟨a, rfl, h⟩

/-- What is left of an attempt is what it gave. -/
theorem eq_ok_of_mem_toOption {ε α : Type} {x : Except ε α} {a : α} (h : a ∈ x.toOption) :
    x = .ok a := by
  cases x with
  | error e => cases h
  | ok b => exact congrArg Except.ok (Option.some.inj h)

/-- An attempt that fails for some kind of reason only. -/
def FailsAs {ε α : Type} (P : ε → Prop) (x : Except ε α) : Prop := ∀ e, x = .error e → P e

namespace FailsAs

variable {ε α β : Type} {P : ε → Prop}

theorem ok (a : α) : FailsAs P (.ok a : Except ε α) := fun _ h => by cases h

theorem error {e : ε} (he : P e) : FailsAs P (.error e : Except ε α) := by
  intro e' h
  cases h
  exact he

theorem bind {x : Except ε α} {f : α → Except ε β} (hx : FailsAs P x)
    (hf : ∀ a, FailsAs P (f a)) : FailsAs P (x >>= f) := by
  cases x with
  | ok a => exact hf a
  | error e => exact error (hx e rfl)

end FailsAs

end BrokerLoad
