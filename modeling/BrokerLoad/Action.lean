import BrokerLoad.Fault

/-!
# Actions

An action runs on a state and either gives a value or stops early. What it did before it stopped
stays in the state. Loops that may run forever take fuel; running out of it is no fault of the
program, so cleanup does not run then and nothing may catch it.

## Main definitions

* `Stop`: why an action stopped early.
* `Action`: a computation on a state that may stop early.
* `Action.closing`: runs a closing action however the first one ended.
* `Traced`: a state together with the notes of what happened so far.

## Main statements

* `Action.runFrom_bind`: two actions in a row.
-/

namespace BrokerLoad

/-- Why an action stopped early. -/
inductive Stop where
  | fault (f : Fault)
  | outOfFuel
  deriving DecidableEq, Repr

/-- A computation on states of type `S` that may stop early. -/
abbrev Action (S α : Type) := ExceptT Stop (StateM S) α

namespace Action

variable {S α : Type}

/-- Runs an action from a state: how it ended, and the state it left. -/
def runFrom (a : Action S α) (s : S) : Except Stop α × S := (ExceptT.run a).run s

/-- The action that does what a function on states says. -/
def ofFunction (f : S → Except Stop α × S) : Action S α := ExceptT.mk (StateT.mk f)

/-- Stops with a fault. -/
def fail (f : Fault) : Action S α := throw (.fault f)

/-- Gives a value or stops with a fault. -/
def ofExcept : Except Fault α → Action S α
  | .ok a => pure a
  | .error f => fail f

/-- Runs `body`, then `close`, however `body` ended. The outcome is that of `body`, unless `close`
itself stops early. -/
def closing (body : Action S α) (close : Action S Unit) : Action S α :=
  ofFunction fun s =>
    match runFrom body s with
    | (.error .outOfFuel, t) => (.error .outOfFuel, t)
    | (outcome, t) =>
      match runFrom close t with
      | (.ok (), u) => (outcome, u)
      | (.error stop, u) => (.error stop, u)

/-- Runs an action and turns the faults that `handle` knows into values. -/
def recover (body : Action S α) (handle : Fault → Option (Action S α)) : Action S α :=
  ofFunction fun s =>
    match runFrom body s with
    | (.error (.fault f), t) =>
      match handle f with
      | some answer => runFrom answer t
      | none => (.error (.fault f), t)
    | ended => ended

/-! ## What the operations do to a state -/

@[simp] theorem runFrom_ofFunction (f : S → Except Stop α × S) (s : S) :
    runFrom (ofFunction f) s = f s := rfl

@[simp] theorem runFrom_pure (a : α) (s : S) : runFrom (pure a : Action S α) s = (.ok a, s) := rfl

@[simp] theorem runFrom_fail (f : Fault) (s : S) :
    runFrom (fail f : Action S α) s = (.error (.fault f), s) := rfl

/-- The second action runs on what the first one left, unless that stopped early. -/
theorem runFrom_bind {β : Type} (x : Action S α) (f : α → Action S β) (s : S) :
    runFrom (x >>= f) s =
      match runFrom x s with
      | (.ok a, t) => runFrom (f a) t
      | (.error stop, t) => (.error stop, t) := by
  simp only [runFrom, bind, ExceptT.bind, ExceptT.mk, ExceptT.run, StateT.bind, StateT.run]
  cases x s with
  | mk outcome t => cases outcome <;> rfl

/-- Passing over the value of an action changes nothing else. -/
theorem runFrom_discard (x : Action S α) (s : S) :
    runFrom (discard x) s =
      match runFrom x s with
      | (.ok _, t) => (.ok ⟨⟩, t)
      | (.error stop, t) => (.error stop, t) := by
  simp only [runFrom, discard, Functor.discard, Functor.mapConst, ExceptT.map, ExceptT.mk,
    ExceptT.run, StateT.run, bind, StateT.bind, Function.comp]
  cases x s with
  | mk outcome t => cases outcome <;> rfl

end Action

/-- A state with the notes of what happened so far, the newest first. -/
structure Traced (ν S : Type) where
  state : S
  trail : List ν := []

namespace Traced

variable {ν S : Type}

/-- What happened so far, in order. -/
def history (w : Traced ν S) : List ν := w.trail.reverse

/-- Adds a note. -/
def note (n : ν) : Action (Traced ν S) Unit :=
  modify fun w => { w with trail := n :: w.trail }

/-- The state without its notes. -/
def current : Action (Traced ν S) S := do return (← get).state

/-- Changes the state and keeps the notes. -/
def change (f : S → S) : Action (Traced ν S) Unit :=
  modify fun w => { w with state := f w.state }

@[simp] theorem runFrom_note (n : ν) (w : Traced ν S) :
    Action.runFrom (note n) w = (.ok (), { w with trail := n :: w.trail }) := rfl

@[simp] theorem runFrom_current (w : Traced ν S) :
    Action.runFrom current w = (.ok w.state, w) := rfl

@[simp] theorem runFrom_change (f : S → S) (w : Traced ν S) :
    Action.runFrom (change f) w = (.ok (), { w with state := f w.state }) := rfl

end Traced

end BrokerLoad
