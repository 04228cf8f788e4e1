import BrokerLoad.Client.Session

/-!
# Taking in replies

A reply tells a client what happened during a request: messages, signals, requests to stop, log
records, calls of the library. The client takes these notes in one after the other, and that never
fails, so the state after a request is a function of the state before it and of the reply. Here that
function is written down, with what it does to each part of a client.

## Main definitions

* `Surroundings.stops`: which happenings ask a client to stop.
* `Client.took`: a client with one more note taken in.
* `Client.asked`, `Client.slept`: a client after a request and after a sleep.

## Main statements

* `Client.request_eq`, `Client.sleep_eq`: requests and sleeps end in these states.
* `Client.received_foldl`, `Client.kept_foldl`, `Client.stopping_foldl`: what the notes of a reply
  change.
-/

namespace BrokerLoad

variable {τ σ η : Type}

/-! ## §1 Notes -/

/-- Whether a happening asks a client to stop. -/
def Surroundings.stops (w : Surroundings τ σ η) : Happening τ → Bool
  | .stopRequest => true
  | .signal number => w.heedsSignals && asksToStop number
  | _ => false

/-- The record of a signal that counts. -/
def signalRecord (number : Int) : LogRecord :=
  ⟨.info, "loadbench.client", "Received signal " ++ integerText number ++ ", stopping"⟩

/-- What is noted for a note of a reply: the note itself, and the record of a signal that counts. -/
def Surroundings.noted (w : Surroundings τ σ η) (n : Note τ) : List (Note τ) :=
  match n.happening with
  | .signal number =>
    if w.heedsSignals && asksToStop number then [n, ⟨n.time, .log (signalRecord number)⟩] else [n]
  | _ => [n]

/-- A message that was received, with the time of it. -/
def Note.message? (n : Note τ) : Option (τ × Message) :=
  match n.happening with
  | .message m => some (n.time, m)
  | _ => none

/-- The messages among some notes, with their times. -/
def messagesOf (notes : List (Note τ)) : List (τ × Message) := notes.filterMap Note.message?

/-- What is kept of some messages. -/
def Handler.acceptAll (h : Handler τ η) (kept : η) (messages : List (τ × Message)) : η :=
  messages.foldl (fun kept m => h.accept m.1 m.2 kept) kept

namespace Client

variable (w : Surroundings τ σ η)

/-- The client with a note of a reply taken in. -/
def took (c : Client σ η) (n : Note τ) : Client σ η :=
  match n.happening with
  | .message m =>
    { c with received := c.received + 1, kept := w.handler.accept n.time m c.kept }
  | h => { c with stopping := c.stopping || w.stops h }

/-! ## §2 What the notes of a reply change -/

section Took

variable (c : Client σ η) (n : Note τ) (notes : List (Note τ))

theorem took_env : (took w c n).env = c.env := by
  unfold took
  split <;> rfl

theorem took_phase : (took w c n).phase = c.phase := by
  unfold took
  split <;> rfl

@[simp] theorem env_foldl : (notes.foldl (took w) c).env = c.env := by
  induction notes generalizing c with
  | nil => rfl
  | cons n rest ih => rw [List.foldl_cons, ih, took_env]

@[simp] theorem phase_foldl : (notes.foldl (took w) c).phase = c.phase := by
  induction notes generalizing c with
  | nil => rfl
  | cons n rest ih => rw [List.foldl_cons, ih, took_phase]

/-- Every message counts once. -/
theorem received_foldl :
    (notes.foldl (took w) c).received = c.received + (messagesOf notes).length := by
  induction notes generalizing c with
  | nil => rfl
  | cons n rest ih =>
    rw [List.foldl_cons, ih]
    obtain ⟨time, happening⟩ := n
    cases happening with
    | message m =>
      have hcons : messagesOf (⟨time, .message m⟩ :: rest) = (time, m) :: messagesOf rest := rfl
      rw [hcons, List.length_cons, took, Nat.add_assoc, Nat.add_comm 1]
    | _ => rfl

/-- Every message is handed to the handler once, in their order. -/
theorem kept_foldl :
    (notes.foldl (took w) c).kept = w.handler.acceptAll c.kept (messagesOf notes) := by
  induction notes generalizing c with
  | nil => rfl
  | cons n rest ih =>
    rw [List.foldl_cons, ih]
    obtain ⟨time, happening⟩ := n
    cases happening <;> rfl

/-- A request to stop is never forgotten. -/
theorem stopping_foldl :
    (notes.foldl (took w) c).stopping = (c.stopping || notes.any fun n => w.stops n.happening) := by
  induction notes generalizing c with
  | nil => rw [List.foldl_nil, List.any_nil, Bool.or_false]
  | cons n rest ih =>
    rw [List.foldl_cons, ih, List.any_cons, ← Bool.or_assoc]
    obtain ⟨time, happening⟩ := n
    cases happening with
    | message m =>
      have hno : w.stops (.message m) = false := rfl
      rw [hno, Bool.or_false]
      rfl
    | _ => rfl

end Took

/-! ## §3 Requests and sleeps -/

variable {w} {s : Traced (Note τ) (Client σ η)}

theorem absorb_eq (n : Note τ) (s : Traced (Note τ) (Client σ η)) :
    Action.runFrom (absorb w n) s =
      (.ok (), ⟨took w s.state n, (w.noted n).reverse ++ s.trail⟩) := by
  obtain ⟨time, happening⟩ := n
  cases happening with
  | message m => rfl
  | stopRequest =>
    simp only [absorb, Action.runFrom_bind, Traced.runFrom_note, Traced.runFrom_change, took,
      Surroundings.stops, Bool.or_true]
    rfl
  | signal number =>
    simp only [absorb, Action.runFrom_bind, Traced.runFrom_note, took, Surroundings.stops,
      Surroundings.noted]
    cases w.heedsSignals && asksToStop number with
    | true =>
      simp only [if_true, Action.runFrom_bind, Traced.runFrom_note, Traced.runFrom_change,
        Bool.or_true]
      rfl
    | false =>
      simp only [Bool.false_eq_true, if_false, Bool.or_false]
      rfl
  | _ =>
    -- nothing else changes a client
    simp only [absorb, Action.runFrom_bind, Traced.runFrom_note, took, Surroundings.stops,
      Bool.or_false]
    rfl

theorem absorbAll_eq (notes : List (Note τ)) (s : Traced (Note τ) (Client σ η)) :
    Action.runFrom (absorbAll w notes) s =
      (.ok (), ⟨notes.foldl (took w) s.state, (notes.flatMap w.noted).reverse ++ s.trail⟩) := by
  induction notes generalizing s with
  | nil => rfl
  | cons n rest ih =>
    rw [absorbAll, Action.runFrom_bind, absorb_eq]
    simp only [ih, List.foldl_cons, List.flatMap_cons, List.reverse_append, List.append_assoc]

variable (w)

/-- The client after a request: the request is noted, then whatever happened meanwhile is taken
in. -/
def asked (r : Request τ) (s : Traced (Note τ) (Client σ η)) : Traced (Note τ) (Client σ η) :=
  let answer := w.session.answer r s.state.env
  ⟨answer.1.notes.foldl (took w) { s.state with env := answer.2 },
    (answer.1.notes.flatMap w.noted).reverse ++
      ⟨w.timer.now s.state.env, .request r s.state.phase⟩ :: s.trail⟩

/-- The client after a sleep. -/
def slept (duration : τ) (s : Traced (Note τ) (Client σ η)) : Traced (Note τ) (Client σ η) :=
  ⟨{ s.state with env := (w.timer.sleep duration s.state.env).2 },
    ⟨w.timer.now s.state.env, .sleep duration⟩ :: s.trail⟩

/-- The client with something noted at the present time. -/
def remarked (h : Happening τ) (s : Traced (Note τ) (Client σ η)) : Traced (Note τ) (Client σ η) :=
  { s with trail := ⟨w.timer.now s.state.env, h⟩ :: s.trail }

variable {w}

@[simp] theorem asked_env (r : Request τ) (s : Traced (Note τ) (Client σ η)) :
    (asked w r s).state.env = (w.session.answer r s.state.env).2 := env_foldl w _ _

@[simp] theorem asked_phase (r : Request τ) (s : Traced (Note τ) (Client σ η)) :
    (asked w r s).state.phase = s.state.phase := phase_foldl w _ _

@[simp] theorem remarked_state (h : Happening τ) (s : Traced (Note τ) (Client σ η)) :
    (remarked w h s).state = s.state := rfl

/-- A request ends as its reply says. -/
theorem request_eq (r : Request τ) (s : Traced (Note τ) (Client σ η)) :
    Action.runFrom (request w r) s =
      ((w.session.answer r s.state.env).1.outcome, asked w r s) := by
  simp only [request, Action.runFrom_bind, Traced.runFrom_current, record, now, Traced.runFrom_note,
    Action.runFrom_pure, Traced.runFrom_change, absorbAll_eq]
  cases hanswer : w.session.answer r s.state.env with
  | mk reply env =>
    simp only [asked, hanswer]
    cases reply.outcome <;> rfl

/-- A sleep ends as the timer says. -/
theorem sleep_eq (duration : τ) (s : Traced (Note τ) (Client σ η)) :
    Action.runFrom (sleep w duration) s =
      ((w.timer.sleep duration s.state.env).1.mapError Stop.fault, slept w duration s) := by
  cases hanswer : w.timer.sleep duration s.state.env with
  | mk outcome env =>
    simp only [sleep, Action.runFrom_bind, Traced.runFrom_current, record, now, Traced.runFrom_note,
      Action.runFrom_pure, Traced.runFrom_change, slept, hanswer]
    cases outcome <;> rfl

theorem log_eq (level : Level) (logger text : String) (s : Traced (Note τ) (Client σ η)) :
    Action.runFrom (log w level logger text) s =
      (.ok (), remarked w (.log ⟨level, logger, text⟩) s) := rfl

end Client

end BrokerLoad
