import BrokerLoad.Proofs.Client.Answers
import BrokerLoad.Rehearsal.Network

/-!
# How a handshake is decided

Once the library has opened a connection, loop calls are made until one of them decides. A loop
call that brings an answer of the broker decides by its last answer, whatever its code is and
however late it ends; one that brings none decides only if it fails. The first of them that decides
is the last one that is made, and they are begun before the deadline: a handshake that reaches the
deadline undecided has no answer.

The wait is a recursion that makes one loop call each time, and the loop calls from any of its
rounds on are numbered like those of a wait that begins there. The one induction goes along this.

## Main definitions

* `Wire.turn`: the loop calls of a handshake, by their numbers.
* `Connection.verdict?`: what a loop call decides.
* `Connection.Decided`: how an attempt to connect is decided.

## Main statements

* `Connection.connect_opening`: the ways in which an attempt to connect goes.
* `Connection.connect_decided`: its first decisive loop call or its deadline decides it.
-/

namespace BrokerLoad

variable {τ σ : Type}

/-! ## §1 Answers among events -/

/-- The broker's answer to the request to connect that an event brings, if any. -/
def NetworkEvent.answer? : NetworkEvent → Option ReasonCode
  | .answered code => some code
  | _ => none

/-- The last answer among some events. -/
def lastAnswer? (events : List NetworkEvent) : Option ReasonCode :=
  (events.filterMap NetworkEvent.answer?).getLast?

/-- The last value among those that a list has, if its first element comes last of all. -/
theorem getLast?_filterMap_cons {α β : Type} (f : α → Option β) (a : α) (rest : List α) :
    ((a :: rest).filterMap f).getLast? = (rest.filterMap f).getLast?.or (f a) := by
  cases ha : f a with
  | none => rw [List.filterMap_cons_none ha, Option.or_none]
  | some b =>
    rw [List.filterMap_cons_some ha, List.getLast?_cons]
    cases (rest.filterMap f).getLast? <;> rfl

theorem lastAnswer?_cons (e : NetworkEvent) (rest : List NetworkEvent) :
    lastAnswer? (e :: rest) = (lastAnswer? rest).or e.answer? :=
  getLast?_filterMap_cons _ e rest

theorem lastAnswer?_eq_none {events : List NetworkEvent} :
    lastAnswer? events = none ↔ ∀ e ∈ events, e.answer? = none := by
  rw [lastAnswer?, List.getLast?_eq_none_iff, List.filterMap_eq_nil_iff]

/-- The last answer is one after which there is no other. -/
theorem lastAnswer?_eq_some {events : List NetworkEvent} {code : ReasonCode}
    (h : lastAnswer? events = some code) :
    ∃ earlier later, events = earlier ++ .answered code :: later ∧
      ∀ e ∈ later, e.answer? = none := by
  induction events with
  | nil => cases h
  | cons e rest ih =>
    rw [lastAnswer?_cons] at h
    cases hrest : lastAnswer? rest with
    | some later =>
      rw [hrest] at h
      obtain ⟨before, after, rfl, hafter⟩ := ih (hrest.trans h)
      exact ⟨e :: before, after, rfl, hafter⟩
    | none =>
      rw [hrest] at h
      cases e with
      | answered answer =>
        cases h
        exact ⟨[], rest, rfl, lastAnswer?_eq_none.mp hrest⟩
      | _ => cases h

/-- A connection remembers the last answer that it got. -/
theorem Link.answer_after (events : List NetworkEvent) (link : Link) :
    (events.foldl Link.react link).answer = (lastAnswer? events).or link.answer := by
  induction events generalizing link with
  | nil => rfl
  | cons e rest ih =>
    rw [List.foldl_cons, ih, lastAnswer?_cons, Option.or_assoc]
    cases e <;> rfl

/-! ## §2 The loop calls of a handshake -/

namespace Wire

variable [Seconds τ]

/-- The environment after a number of loop calls of a wait. -/
def turned (w : Wire τ σ) (env : σ) : Nat → σ
  | 0 => env
  | n + 1 => w.turned (w.network.loop Connection.handshakeSlice env).2 n

/-- The loop call with a number, counted from zero, of a handshake whose loop calls begin in
`env`. -/
def turn (w : Wire τ σ) (env : σ) (n : Nat) : Exchange τ :=
  let result := (w.network.loop Connection.handshakeSlice (w.turned env n)).1
  .loop Connection.handshakeSlice result.1 result.2

/-- The first loop calls of a handshake. -/
def turns (w : Wire τ σ) (env : σ) (n : Nat) : List (Exchange τ) :=
  (List.range n).map (w.turn env)

theorem turns_succ (w : Wire τ σ) (env : σ) (n : Nat) :
    w.turns env (n + 1) =
      w.turn env 0 :: w.turns (w.network.loop Connection.handshakeSlice env).2 n := by
  rw [turns, List.range_succ_eq_map, List.map_cons, List.map_map]
  rfl

theorem turns_concat (w : Wire τ σ) (env : σ) (n : Nat) :
    w.turns env (n + 1) = w.turns env n ++ [w.turn env n] := by
  rw [turns, List.range_succ, List.map_append, List.map_singleton, turns]

end Wire

namespace Connection

/-- What an answer of the broker decides. -/
def answerVerdict (c : Connection τ) (answer : ReasonCode) : Except ConnectError Unit :=
  if answer.failure then .error (.refused c.broker c.client answer.name) else .ok ()

/-- How a request ends whose handshake came to a verdict. -/
def settledAs (verdict : Except ConnectError Unit) : Except Stop Unit :=
  verdict.mapError fun e => .fault (.connect e)

theorem settledAs_error (reason : ConnectError) :
    settledAs (.error reason) = .error (.fault (.connect reason)) := rfl

/-- What a loop call of a handshake decides, if it does: the last answer in it decides, and without
an answer a code other than success does. -/
def verdict? (c : Connection τ) : Exchange τ → Option (Except ConnectError Unit)
  | .loop _ events code =>
    match lastAnswer? events with
    | some answer => some (c.answerVerdict answer)
    | none =>
      if code = resultOk then none else some (.error (.handshake c.broker (resultText code)))
  | _ => none

theorem verdict?_of_answer {c : Connection τ} {timeout : τ} {events : List NetworkEvent}
    {code : Int} {answer : ReasonCode} (h : lastAnswer? events = some answer) :
    c.verdict? (.loop timeout events code) = some (c.answerVerdict answer) := by
  rw [verdict?, h]

theorem verdict?_of_no_answer {c : Connection τ} {timeout : τ} {events : List NetworkEvent}
    {code : Int} (h : lastAnswer? events = none) :
    c.verdict? (.loop timeout events code) =
      if code = resultOk then none else some (.error (.handshake c.broker (resultText code))) := by
  rw [verdict?, h]

/-- Only an answer that accepts the connection decides in its favour. -/
theorem verdict?_ok {c : Connection τ} {timeout : τ} {events : List NetworkEvent} {code : Int}
    (h : c.verdict? (.loop timeout events code) = some (.ok ())) :
    ∃ answer, lastAnswer? events = some answer ∧ answer.failure = false := by
  cases hlast : lastAnswer? events with
  | none =>
    rw [verdict?_of_no_answer hlast] at h
    split at h <;> cases h
  | some answer =>
    rw [verdict?_of_answer hlast, answerVerdict] at h
    split at h
    · cases h
    · next hanswer => exact ⟨answer, rfl, Bool.eq_false_iff.mpr hanswer⟩

variable [Seconds τ]

/-- Whether a loop call of a handshake is begun before the deadline: the clock does not show it yet.
A deadline that is not a number is never shown. -/
def InTime (w : Wire τ σ) (deadline : τ) (env : σ) (n : Nat) : Prop :=
  Seconds.le deadline (w.timer.now (w.turned env n)) = false

instance (w : Wire τ σ) (deadline : τ) (env : σ) (n : Nat) :
    Decidable (InTime w deadline env n) := inferInstanceAs (Decidable (_ = _))

/-- Whether a handshake goes on after a loop call: it is begun in time and decides nothing. -/
def Unsettled (c : Connection τ) (w : Wire τ σ) (deadline : τ) (env : σ) (n : Nat) : Prop :=
  InTime w deadline env n ∧ c.verdict? (w.turn env n) = none

instance (c : Connection τ) (w : Wire τ σ) (deadline : τ) (env : σ) (n : Nat) :
    Decidable (c.Unsettled w deadline env n) := inferInstanceAs (Decidable (_ ∧ _))

/-- The fault of a handshake that is not decided before its deadline. -/
def overdueError (c : Connection τ) : ConnectError :=
  .noAnswer c.broker (Seconds.text c.connectTimeout)

/-- How a wait whose loop calls begin in `env` ends after a number of them: with the verdict of the
last, because the deadline is reached, or not yet. -/
inductive Waited (c : Connection τ) (w : Wire τ σ) (deadline : τ) (fuel : Nat) (env : σ) :
    Nat → Except Stop Unit → Prop
  | settled {n verdict} : (∀ i < n, c.Unsettled w deadline env i) → InTime w deadline env n →
    c.verdict? (w.turn env n) = some verdict →
    Waited c w deadline fuel env (n + 1) (settledAs verdict)
  | overdue {n} : (∀ i < n, c.Unsettled w deadline env i) → ¬InTime w deadline env n →
    Waited c w deadline fuel env n (settledAs (.error c.overdueError))
  | endless : (∀ i < fuel - 1, c.Unsettled w deadline env i) →
    Waited c w deadline fuel env fuel (.error .outOfFuel)

variable {c : Connection τ} {w : Wire τ σ} {deadline : τ} {fuel : Nat}
  {s t : Traced (Note τ) (Line σ)}

theorem unsettled_zero {env : σ} : ∀ i < 0, c.Unsettled w deadline env i :=
  fun _ hi => absurd hi (Nat.not_lt_zero _)

/-- A handshake that goes on after its first loop call goes on like one that begins there. -/
theorem unsettled_succ {env : σ} {n : Nat} (hfirst : c.Unsettled w deadline env 0)
    (h : ∀ i < n, c.Unsettled w deadline (w.network.loop handshakeSlice env).2 i) :
    ∀ i < n + 1, c.Unsettled w deadline env i := by
  intro i hi
  cases i with
  | zero => exact hfirst
  | succ i => exact h i (Nat.lt_of_succ_lt_succ hi)

theorem Waited.succ {env : σ} {n : Nat} {outcome : Except Stop Unit}
    (hfirst : c.Unsettled w deadline env 0)
    (h : Waited c w deadline fuel (w.network.loop handshakeSlice env).2 n outcome) :
    Waited c w deadline (fuel + 1) env (n + 1) outcome := by
  cases h with
  | settled hrest hlast hverdict => exact .settled (unsettled_succ hfirst hrest) hlast hverdict
  | overdue hrest hlate => exact .overdue (unsettled_succ hfirst hrest) hlate
  | endless hrest =>
    refine .endless fun i hi => ?_
    cases i with
    | zero => exact hfirst
    | succ i => exact hrest i (Nat.lt_sub_of_add_lt hi)

/-- A loop call gives what the network says. -/
theorem loop_turn (s : Traced (Note τ) (Line σ)) :
    let result := w.network.loop handshakeSlice s.state.env
    ∃ t, Action.runFrom (loop c w handshakeSlice) s = (.ok result.1.2, t) ∧
      Along c w s [w.turn s.state.env 0] t ∧ t.state.env = result.2 ∧
      t.state.link = result.1.1.foldl Link.react s.state.link := by
  intro result
  obtain ⟨events, code, t, hrun, ⟨notes, hnoted⟩, hlink⟩ :=
    loop_along (c := c) (w := w) handshakeSlice s
  have hresult : result = ((events, code), w.after s.state.env notes) :=
    Wire.loop_of_exchanges hnoted.exchanges
  have hturn : w.turn s.state.env 0 = .loop handshakeSlice result.1.1 result.1.2 := rfl
  rw [hturn, hresult]
  exact ⟨t, hrun, ⟨notes, hnoted⟩, hnoted.env.symm, hlink⟩

/-- A wait that finds an answer ends with what that answer decides. -/
theorem awaitAnswer_answered {answer : ReasonCode} (hanswer : s.state.link.answer = some answer) :
    Action.runFrom (awaitAnswer c w deadline (fuel + 1)) s =
      (settledAs (c.answerVerdict answer), s) := by
  simp only [awaitAnswer, Action.runFrom_bind, Traced.runFrom_current, hanswer,
    Action.runFrom_ite, Action.runFrom_fail, Action.runFrom_pure, answerVerdict]
  cases answer.failure <;> rfl

/-- A wait that finds no answer gives up at its deadline, or because its next loop call failed
without an answer, or else goes on after that. -/
theorem awaitAnswer_unanswered {code : Int} (hnone : s.state.link.answer = none)
    (hrun : Action.runFrom (loop c w handshakeSlice) s = (.ok code, t)) :
    Action.runFrom (awaitAnswer c w deadline (fuel + 1)) s =
      if Seconds.le deadline (w.timer.now s.state.env) then
        (settledAs (.error c.overdueError), s)
      else if code ≠ resultOk ∧ t.state.link.answer = none then
        (settledAs (.error (.handshake c.broker (resultText code))), t)
      else Action.runFrom (awaitAnswer c w deadline fuel) t := by
  rw [awaitAnswer]
  simp only [Action.runFrom_bind, Traced.runFrom_current, hnone, runFrom_now, Action.runFrom_ite,
    Action.runFrom_fail, hrun]
  split
  · rfl
  · split <;> rfl

/-- A wait without an answer ends with its first decisive loop call or at its deadline. -/
theorem awaitAnswer_waited (deadline : τ) (fuel : Nat) (s : Traced (Note τ) (Line σ))
    (hnone : s.state.link.answer = none) :
    let e := Action.runFrom (awaitAnswer c w deadline fuel) s
    ∃ n, Waited c w deadline fuel s.state.env n e.1 ∧
      Along c w s (w.turns s.state.env n) e.2 := by
  induction fuel generalizing s with
  | zero => exact ⟨0, .endless unsettled_zero, .unnoted rfl rfl⟩
  | succ fuel ih =>
    obtain ⟨t, hrun, halong, henv, hlink⟩ := loop_turn (c := c) (w := w) s
    have hanswer := Link.answer_after (w.network.loop handshakeSlice s.state.env).1.1 s.state.link
    rw [← hlink] at hanswer
    have hturn : w.turn s.state.env 0 = .loop handshakeSlice
        (w.network.loop handshakeSlice s.state.env).1.1
        (w.network.loop handshakeSlice s.state.env).1.2 := rfl
    rw [awaitAnswer_unanswered hnone hrun]
    split
    · next hlate =>
      exact ⟨0, .overdue unsettled_zero (ne_false_of_eq_true hlate), .unnoted rfl rfl⟩
    · next hlate =>
      have hintime : InTime w deadline s.state.env 0 := Bool.eq_false_iff.mpr hlate
      generalize (w.network.loop handshakeSlice s.state.env).1 = result at hturn hanswer
      obtain ⟨events, code⟩ := result
      rw [hnone, Option.or_none] at hanswer
      cases hlast : lastAnswer? events with
      | some answer =>
        rw [hlast] at hanswer
        have hverdict : c.verdict? (w.turn s.state.env 0) = some (c.answerVerdict answer) := by
          rw [hturn, verdict?_of_answer hlast]
        have hanswered : t.state.link.answer ≠ none := by
          rw [hanswer]
          exact Option.some_ne_none _
        rw [if_neg fun h => hanswered h.2]
        -- the next round finds the answer, if there is one
        cases fuel with
        | zero => exact ⟨1, .endless unsettled_zero, halong⟩
        | succ fuel =>
          rw [awaitAnswer_answered hanswer]
          exact ⟨1, .settled unsettled_zero hintime hverdict, halong⟩
      | none =>
        rw [hlast] at hanswer
        have hverdict : c.verdict? (w.turn s.state.env 0) =
            if code = resultOk then none
            else some (.error (.handshake c.broker (resultText code))) := by
          rw [hturn, verdict?_of_no_answer hlast]
        dsimp only
        by_cases hok : code = resultOk
        · -- what follows is a wait that begins where this loop call ends
          rw [if_pos hok] at hverdict
          rw [if_neg fun h => h.1 hok]
          obtain ⟨n, hwaited, hrest⟩ := ih t hanswer
          rw [henv] at hwaited hrest
          refine ⟨n + 1, hwaited.succ ⟨hintime, hverdict⟩, ?_⟩
          rw [Wire.turns_succ]
          exact halong.trans hrest
        · rw [if_neg hok] at hverdict
          rw [if_pos ⟨hok, hanswer⟩]
          exact ⟨1, .settled unsettled_zero hintime hverdict, halong⟩

/-! ## §3 Attempts to connect -/

/-- The call that asks the library to connect, with its result. -/
def dialling (c : Connection τ) (result : Except Fault Unit) : Exchange τ :=
  .connect c.broker.host c.broker.port c.keepalive result

/-- What the library makes of that call. -/
def dial (c : Connection τ) (w : Wire τ σ) (env : σ) : Except Fault Unit × σ :=
  w.network.connect c.broker.host c.broker.port c.keepalive env

/-- Whether a fault of the library says that the broker cannot be reached: those of the operating
system and of malformed values do. -/
def unreached : Fault → Bool
  | .os _ | .value _ | .config _ => true
  | _ => false

/-- The deadline of a handshake whose loop calls begin in `env`. -/
def deadlineFrom (c : Connection τ) (w : Wire τ σ) (env : σ) : τ :=
  Seconds.add (w.timer.now env) c.connectTimeout

/-- What a connection does after a handshake: it keeps one that was accepted, and ends any other by
two calls. -/
inductive Concluded : Except Stop Unit → List (Exchange τ) → Prop
  | kept : Concluded (.ok ()) []
  | hungUp {e events code} : Concluded (.error (.fault (.connect e)))
    [.disconnect, .loop Seconds.zero events code]
  | waiting : Concluded (.error .outOfFuel) []

/-- The ways in which an attempt to connect goes that begins in `env`, with the calls of the
library. -/
inductive Opening (c : Connection τ) (w : Wire τ σ) (fuel : Nat) (env : σ) :
    Except Stop Unit → List (Exchange τ) → Prop
  | unopened {f} : (c.dial w env).1 = .error f →
    Opening c w fuel env (.error (.fault (c.openFault f))) [c.dialling (.error f)]
  | waited {n outcome closing} : (c.dial w env).1 = .ok () →
    Waited c w (c.deadlineFrom w (c.dial w env).2) fuel (c.dial w env).2 n outcome →
    Concluded outcome closing →
    Opening c w fuel env outcome
      (c.dialling (.ok ()) :: (w.turns (c.dial w env).2 n ++ closing))

/-- A handshake that came to a verdict or ran out of fuel is concluded. -/
theorem greet_concluded {outcome : Except Stop Unit}
    (hrun : Action.runFrom (awaitAnswer c w deadline fuel) s = (outcome, t))
    (hend : outcome = .error .outOfFuel ∨ ∃ verdict, outcome = settledAs verdict) :
    let e := Action.runFrom (greet c w deadline fuel) s
    e.1 = outcome ∧ ∃ closing, Concluded outcome closing ∧ Along c w t closing e.2 := by
  intro e
  have he : e = Action.runFrom (greet c w deadline fuel) s := rfl
  simp only [greet, Action.runFrom_bind, Action.recover, Action.runFrom_ofFunction, hrun] at he
  rcases hend with rfl | ⟨verdict, rfl⟩
  · rw [he]
    exact ⟨rfl, [], .waiting, .unnoted rfl rfl⟩
  · cases verdict with
    | ok _ =>
      rw [he]
      exact ⟨rfl, [], .kept, .of_noted (.log _) rfl⟩
    | error reason =>
      obtain ⟨events, code, u, habandon, halong, -⟩ := abandon_along (c := c) (w := w) t
      rw [settledAs_error] at he ⊢
      simp only [Action.runFrom_bind, habandon, Action.runFrom_fail] at he
      rw [he]
      exact ⟨rfl, _, .hungUp, halong⟩

theorem Waited.ends {env : σ} {n : Nat} {outcome : Except Stop Unit}
    (h : Waited c w deadline fuel env n outcome) :
    outcome = .error .outOfFuel ∨ ∃ verdict, outcome = settledAs verdict := by
  cases h with
  | settled => exact .inr ⟨_, rfl⟩
  | overdue => exact .inr ⟨_, rfl⟩
  | endless => exact .inl rfl

/-- An attempt to connect is unopened or waits for its answer. -/
theorem connect_opening (fuel : Nat) (s : Traced (Note τ) (Line σ)) :
    let e := Action.runFrom (connect c w fuel) s
    ∃ calls, Opening c w fuel s.state.env e.1 calls ∧ Along c w s calls e.2 := by
  have hdialled : Along c w s [c.dialling (c.dial w s.state.env).1] (dialled c w s) :=
    (Along.unnoted rfl rfl : Along c w s [] (fresh s)).trans (.of_noted (.call rfl) rfl)
  rw [connect_eq]
  cases hdial : (w.network.connect c.broker.host c.broker.port c.keepalive s.state.env).1 with
  | error f =>
    rw [dial, hdial] at hdialled
    exact ⟨_, .unopened hdial, hdialled⟩
  | ok _ =>
    rw [dial, hdial] at hdialled
    obtain ⟨n, hwaited, hturns⟩ := awaitAnswer_waited (c := c) (w := w)
      (c.deadlineFrom w (c.dial w s.state.env).2) fuel (dialled c w s) rfl
    obtain ⟨hend, closing, hconcluded, hclosing⟩ :=
      greet_concluded (Prod.eta _).symm hwaited.ends
    refine ⟨_, .waited hdial (hend ▸ hwaited) (hend ▸ hconcluded), ?_⟩
    exact hdialled.trans (hturns.trans hclosing)

variable (c w) in
/-- An attempt to connect in a session goes in one of these ways, whatever the connection remembers
of earlier ones. -/
theorem session_opening (fuel : Nat) (line : Line σ) :
    let reply := ((c.session w fuel).connect line).1
    Opening c w fuel line.env reply.outcome (w.exchanges line.env reply.notes) := by
  obtain ⟨calls, hopening, halong⟩ := connect_opening (c := c) (w := w) fuel { state := line }
  have hcalls : w.exchanges line.env ((c.session w fuel).connect line).1.notes = calls :=
    halong.reply
  have houtcome : ((c.session w fuel).connect line).1.outcome =
      (Action.runFrom (connect c w fuel) { state := line }).1 := congrArg Prod.fst (unvalued_unit _)
  intro reply
  rw [hcalls, houtcome]
  exact hopening

/-! ## §4 Decisions -/

/-- The calls of an attempt to connect whose loop calls begin in `env`: the library is asked once to
connect, some loop calls follow, and what concludes them is last. -/
def HandshakeCalls (c : Connection τ) (w : Wire τ σ) (env : σ) (n : Nat)
    (outcome : Except Stop Unit) (calls : List (Exchange τ)) : Prop :=
  ∃ closing, calls = c.dialling (.ok ()) :: (w.turns env n ++ closing) ∧
    Concluded outcome closing

/-- How an attempt to connect is decided that begins in `env`, as long as the fuel lasts. -/
structure Decided (c : Connection τ) (w : Wire τ σ) (fuel : Nat) (env : σ)
    (calls : List (Exchange τ)) (outcome : Except Stop Unit) : Prop where
  /-- A library that cannot connect is asked once and called no more. -/
  unopened : ∀ f, (c.dial w env).1 = .error f →
    calls = [c.dialling (.error f)] ∧ outcome = .error (.fault
      (if unreached f then .connect (.unreachable c.broker f.message) else f))
  /-- If it can, the first loop call that decides is the last, if it and those before it are begun
  before the deadline. -/
  settled : ∀ n verdict, let opened := (c.dial w env).2
    (c.dial w env).1 = .ok () → n + 1 < fuel →
    (∀ i < n, c.Unsettled w (c.deadlineFrom w opened) opened i) →
    InTime w (c.deadlineFrom w opened) opened n → c.verdict? (w.turn opened n) = some verdict →
    outcome = settledAs verdict ∧ c.HandshakeCalls w opened (n + 1) outcome calls
  /-- If the deadline is reached before, there is no answer. -/
  overdue : ∀ n, let opened := (c.dial w env).2
    (c.dial w env).1 = .ok () → n + 1 < fuel →
    (∀ i < n, c.Unsettled w (c.deadlineFrom w opened) opened i) →
    ¬InTime w (c.deadlineFrom w opened) opened n →
    outcome = settledAs (.error (.noAnswer c.broker (Seconds.text c.connectTimeout))) ∧
      c.HandshakeCalls w opened n outcome calls
  /-- The attempt goes on for ever only if neither happens. -/
  endless : outcome = .error .outOfFuel → let opened := (c.dial w env).2
    (c.dial w env).1 = .ok () ∧
      ∀ i < fuel - 1, c.Unsettled w (c.deadlineFrom w opened) opened i

/-- A loop call that does not let a handshake go on is not among those that do. -/
theorem le_of_not_unsettled {env : σ} {n m : Nat} (h : ∀ i < n, c.Unsettled w deadline env i)
    (hstop : ¬c.Unsettled w deadline env m) : n ≤ m :=
  Nat.le_of_not_lt fun hlt => hstop (h m hlt)

theorem not_unsettled_of_verdict {env : σ} {n : Nat} {verdict : Except ConnectError Unit}
    (h : c.verdict? (w.turn env n) = some verdict) : ¬c.Unsettled w deadline env n := by
  intro hgoes
  rw [hgoes.2] at h
  cases h

theorem not_unsettled_of_late {env : σ} {n : Nat} (h : ¬InTime w deadline env n) :
    ¬c.Unsettled w deadline env n := fun hgoes => h hgoes.1

/-- A wait ends where it first does not go on: with a verdict that comes in time, or because the
deadline is reached. -/
theorem Waited.stops {env : σ} {n m : Nat} {outcome : Except Stop Unit}
    (h : Waited c w deadline fuel env m outcome) (hfuel : n + 1 < fuel)
    (hbefore : ∀ i < n, c.Unsettled w deadline env i) (hstop : ¬c.Unsettled w deadline env n) :
    (∃ verdict, InTime w deadline env n ∧ c.verdict? (w.turn env n) = some verdict ∧
      m = n + 1 ∧ outcome = settledAs verdict) ∨
    (¬InTime w deadline env n ∧ m = n ∧ outcome = settledAs (.error c.overdueError)) := by
  cases h with
  | @settled k verdict hfirst hintime hverdict =>
    obtain rfl : k = n := Nat.le_antisymm (le_of_not_unsettled hfirst hstop)
      (le_of_not_unsettled hbefore (not_unsettled_of_verdict hverdict))
    exact .inl ⟨verdict, hintime, hverdict, rfl, rfl⟩
  | overdue hfirst hlate =>
    obtain rfl : m = n := Nat.le_antisymm (le_of_not_unsettled hfirst hstop)
      (le_of_not_unsettled hbefore (not_unsettled_of_late hlate))
    exact .inr ⟨hlate, rfl, rfl⟩
  | endless hall => exact absurd (hall n (Nat.lt_sub_of_add_lt hfuel)) hstop

theorem Waited.of_verdict {env : σ} {n m : Nat} {outcome : Except Stop Unit}
    {verdict : Except ConnectError Unit} (h : Waited c w deadline fuel env m outcome)
    (hfuel : n + 1 < fuel) (hbefore : ∀ i < n, c.Unsettled w deadline env i)
    (hintime : InTime w deadline env n) (hverdict : c.verdict? (w.turn env n) = some verdict) :
    m = n + 1 ∧ outcome = settledAs verdict := by
  rcases h.stops hfuel hbefore (not_unsettled_of_verdict hverdict) with
    ⟨decided, -, hdecided, hm, houtcome⟩ | ⟨hlate, -⟩
  · rw [hverdict] at hdecided
    cases hdecided
    exact ⟨hm, houtcome⟩
  · exact absurd hintime hlate

theorem Waited.of_late {env : σ} {n m : Nat} {outcome : Except Stop Unit}
    (h : Waited c w deadline fuel env m outcome) (hfuel : n + 1 < fuel)
    (hbefore : ∀ i < n, c.Unsettled w deadline env i) (hlate : ¬InTime w deadline env n) :
    m = n ∧ outcome = settledAs (.error c.overdueError) := by
  rcases h.stops hfuel hbefore (not_unsettled_of_late hlate) with ⟨_, hintime, -⟩ | ⟨-, hend⟩
  · exact absurd hintime hlate
  · exact hend

omit [Seconds τ] in
theorem settledAs_ne_outOfFuel (verdict : Except ConnectError Unit) :
    settledAs verdict ≠ .error .outOfFuel := by
  cases verdict <;> exact nofun

/-- A wait goes on for ever only if nothing decides it. -/
theorem Waited.of_endless {env : σ} {n : Nat} {outcome : Except Stop Unit}
    (h : Waited c w deadline fuel env n outcome) (hend : outcome = .error .outOfFuel) :
    ∀ i < fuel - 1, c.Unsettled w deadline env i := by
  cases h with
  | settled => exact absurd hend (settledAs_ne_outOfFuel _)
  | overdue => exact absurd hend (settledAs_ne_outOfFuel _)
  | endless hall => exact hall

/-- A wait that ends well ends with an answer that accepts the connection. -/
theorem Waited.of_ok {env : σ} {n : Nat} {outcome : Except Stop Unit}
    (h : Waited c w deadline fuel env n outcome) (hok : outcome = .ok ()) :
    ∃ k, n = k + 1 ∧ c.verdict? (w.turn env k) = some (.ok ()) := by
  cases h with
  | @settled k verdict _ _ hverdict =>
    cases verdict with
    | ok _ => exact ⟨k, rfl, hverdict⟩
    | error _ => cases hok
  | overdue => cases hok
  | endless => cases hok

omit [Seconds τ] in
theorem openFault_eq (c : Connection τ) (f : Fault) :
    c.openFault f = if unreached f then .connect (.unreachable c.broker f.message) else f := by
  cases f <;> rfl

/-- An attempt to connect that ends well makes no call after the loop call that decides. -/
theorem Opening.of_ok {env : σ} {calls : List (Exchange τ)}
    (h : Opening c w fuel env (.ok ()) calls) :
    ∃ k, c.verdict? (w.turn (c.dial w env).2 k) = some (.ok ()) ∧
      calls =
        c.dialling (.ok ()) :: (w.turns (c.dial w env).2 k ++ [w.turn (c.dial w env).2 k]) := by
  cases h with
  | waited _ hwaited hconcluded =>
    obtain ⟨k, rfl, hverdict⟩ := hwaited.of_ok rfl
    cases hconcluded
    exact ⟨k, hverdict, by rw [List.append_nil, Wire.turns_concat]⟩

theorem Opening.decided {env : σ} {outcome : Except Stop Unit} {calls : List (Exchange τ)}
    (h : Opening c w fuel env outcome calls) : Decided c w fuel env calls outcome := by
  cases h with
  | @unopened f hdial =>
    have hclosed : (c.dial w env).1 ≠ .ok () := by rw [hdial]; exact nofun
    refine ⟨fun g hg => ?_, fun _ _ hok => absurd hok hclosed, fun _ hok => absurd hok hclosed,
      nofun⟩
    rw [hdial] at hg
    cases hg
    exact ⟨rfl, by rw [openFault_eq]⟩
  | @waited m outcome closing hdial hwaited hconcluded =>
    constructor
    case unopened =>
      intro f hf
      rw [hdial] at hf
      cases hf
    case settled =>
      intro n verdict opened _ hfuel hbefore hintime hverdict
      obtain ⟨rfl, houtcome⟩ := hwaited.of_verdict hfuel hbefore hintime hverdict
      exact ⟨houtcome, closing, rfl, hconcluded⟩
    case overdue =>
      intro n opened _ hfuel hbefore hlate
      obtain ⟨rfl, houtcome⟩ := hwaited.of_late hfuel hbefore hlate
      exact ⟨houtcome, closing, rfl, hconcluded⟩
    case endless => exact fun hend => ⟨hdial, hwaited.of_endless hend⟩

variable (c w) in
/-- An attempt to connect is decided by the first decisive loop call or by its deadline, whatever
the connection remembers of earlier ones. -/
theorem connect_decided (fuel : Nat) (line : Line σ) :
    let reply := ((c.session w fuel).connect line).1
    Decided c w fuel line.env (w.exchanges line.env reply.notes) reply.outcome :=
  (session_opening c w fuel line).decided

/-- A connection to a broker on this host that has three tenths of a second for its answer. -/
def impatient : Connection Rat where
  broker := { host := "localhost" }
  client := "pub_1"
  connectTimeout := 3 / 10

/-- The network as scripted, with exact times. -/
def scripted : Wire Rat (NetworkRehearsal Rat) :=
  ⟨NetworkRehearsal.network, NetworkRehearsal.timer⟩

/-- A connection that was up, and last refused, before it is opened again. The first two loop calls
bring nothing and the end of the earlier session. The third takes five seconds, which is far too
long; it brings a refusal and then an acceptance, and fails. -/
def hesitant : Line (NetworkRehearsal Rat) where
  env :=
    { script :=
        { loops :=
            [{},
              { events := [.disconnected ⟨"Session taken over", true⟩] },
              { takes := some 5
                events := [.answered ⟨"Server busy", true⟩, .answered ⟨"Success", false⟩]
                code := 7 }] }
      now := 0 }
  link := { connected := true, answer := some ⟨"Not authorized", true⟩ }

/-- The last answer of the third loop call decides: the connection is accepted. -/
theorem belated_acceptance_decides :
    let opened := (impatient.dial scripted hesitant.env).2
    let deadline := impatient.deadlineFrom scripted opened
    (∀ i < 2, impatient.Unsettled scripted deadline opened i) ∧
      InTime scripted deadline opened 2 ∧
      impatient.verdict? (scripted.turn opened 2) = some (.ok ()) ∧
      ((impatient.session scripted 9).connect hesitant).1.outcome = .ok () := by
  intro opened deadline
  have hbefore : ∀ i < 2, impatient.Unsettled scripted deadline opened i := by decide +kernel
  have hintime : InTime scripted deadline opened 2 := by decide +kernel
  have hverdict : impatient.verdict? (scripted.turn opened 2) = some (.ok ()) := rfl
  have hdecided := connect_decided impatient scripted 9 hesitant
  exact ⟨hbefore, hintime, hverdict,
    (hdecided.settled 2 (.ok ()) rfl (by decide) hbefore hintime hverdict).1⟩

end Connection

end BrokerLoad
