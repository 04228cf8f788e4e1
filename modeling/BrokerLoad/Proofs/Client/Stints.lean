import BrokerLoad.Proofs.Client.Loops
import Mathlib.Data.List.Chain

/-!
# The stints of a publisher

What the loop of a publisher does is a row of stints: pumps, sends and sleeps, each with the times
at which it began and was over, and with the message that was next meanwhile. The deals of a course
do not tell the time at which a deal was over, nor which deadline the publisher had before it; here
both are kept, so that bounds on times, on deadlines and on the number of turns can be stated.
`Laps` follows the recursion of the loop, one constructor for each way of a turn, for any kind of
time and whatever the surroundings answer.

## Main definitions

* `Publisher.Stint`: a pump, a send or a sleep.
* `Publisher.Laps`: the stints of a loop with some fuel, and how it ends.
* `Publisher.Worked`, `Publisher.Ran`: the stints of a publisher on an open session, and of a run.

## Main statements

* `Publisher.loop_laps`: every loop goes through laps.
* `Publisher.Laps.row`: no time passes between the stints of a loop, and sends follow pumps.
* `Publisher.run_ran`: what a run does besides is to connect and to disconnect.
-/

namespace BrokerLoad

variable {τ σ η : Type}

namespace Publisher

/-! ## §1 Stints -/

/-- A pump, a send or a sleep of the loop: the deal, the time at which it was over, and the index
and the deadline of the message that was next. -/
structure Stint (τ : Type) where
  deal : Deal τ
  finish : τ
  index : Int
  deadline : τ

namespace Stint

/-- The time at which a stint began. -/
def time (x : Stint τ) : τ := x.deal.note.time

/-- Whether a stint is a send. -/
def isSend (x : Stint τ) : Bool := x.deal.note.happening.isPublish

/-- Whether a stint is a pump. -/
def isPump (x : Stint τ) : Bool :=
  match x.deal.note.happening with
  | .request (.pump _) _ => true
  | _ => false

end Stint

section Stints

variable (w : Surroundings τ σ η) (p : Progress τ) (env : σ)

/-- A request that an active publisher makes in an environment. -/
def requestStint (r : Request τ) : Stint τ where
  deal := ⟨⟨w.timer.now env, .request r .active⟩, (w.session.answer r env).1.outcome⟩
  finish := w.timer.now (w.session.answer r env).2
  index := p.index
  deadline := p.deadline

/-- A sleep of a publisher in an environment. -/
def sleepStint (duration : τ) : Stint τ where
  deal := ⟨⟨w.timer.now env, .sleep duration⟩,
    (w.timer.sleep duration env).1.mapError Stop.fault⟩
  finish := w.timer.now (w.timer.sleep duration env).2
  index := p.index
  deadline := p.deadline

variable [Seconds τ] (plan : Plan τ) (tuning : Tuning τ)

/-- The pump of a turn. -/
def pumpStint : Stint τ := requestStint w p env (pumpRequest tuning p (w.timer.now env))

/-- The environment after the pump of a turn. -/
def pumped : σ := (w.session.answer (pumpRequest tuning p (w.timer.now env)) env).2

/-- The send of a turn. -/
def sendStint : Stint τ := requestStint w p env (sendRequest plan)

/-- The environment after a send. -/
def sent : σ := (w.session.answer (sendRequest plan) env).2

/-- How long the publisher sleeps in a turn. -/
def nap (now : τ) : τ := Seconds.min (Seconds.sub p.deadline now) tuning.pollQuantum

/-- The sleep of a turn. -/
def napStint : Stint τ := sleepStint w p env (nap p tuning (w.timer.now env))

/-- The environment after the sleep of a turn. -/
def rested : σ := (w.timer.sleep (nap p tuning (w.timer.now env)) env).2

end Stints

/-! ## §2 Laps -/

section Laps

variable [Seconds τ]

/-- A turn that begins with time left and whose pump goes well and leaves some: it goes on with a
send or with a sleep. -/
structure GoesOn (w : Surroundings τ σ η) (plan : Plan τ) (tuning : Tuning τ)
    (schedule : Schedule τ) (p : Progress τ) (env : σ) : Prop where
  begins : isOver plan schedule (w.timer.now env) = false
  pump : (pumpStint w p env tuning).deal.outcome = .ok ()
  remains : isOver plan schedule (w.timer.now (pumped w p env tuning)) = false

/-- The stints of a loop with some fuel from some progress and environment on, how it ends, and the
environment that it leaves. -/
inductive Laps (w : Surroundings τ σ η) (plan : Plan τ) (tuning : Tuning τ)
    (schedule : Schedule τ) :
    Nat → Progress τ → σ → List (Stint τ) → Except Stop (Progress τ) → σ → Prop
  /-- There is no fuel for a turn. -/
  | spent {p env} : Laps w plan tuning schedule 0 p env [] (.error .outOfFuel) env
  /-- The duration is over when the turn begins. -/
  | finished {fuel p env} : isOver plan schedule (w.timer.now env) = true →
    Laps w plan tuning schedule (fuel + 1) p env [] (.ok p) env
  /-- The pump ends the loop. -/
  | cut {fuel p env stop} : isOver plan schedule (w.timer.now env) = false →
    (pumpStint w p env tuning).deal.outcome = .error stop →
    Laps w plan tuning schedule (fuel + 1) p env [pumpStint w p env tuning] (.error stop)
      (pumped w p env tuning)
  /-- The duration is over after the pump. -/
  | late {fuel p env} : isOver plan schedule (w.timer.now env) = false →
    (pumpStint w p env tuning).deal.outcome = .ok () →
    isOver plan schedule (w.timer.now (pumped w p env tuning)) = true →
    Laps w plan tuning schedule (fuel + 1) p env [pumpStint w p env tuning] (.ok p)
      (pumped w p env tuning)
  /-- The message is due, and the attempt to send it ends the loop. -/
  | unsent {fuel p env stop} : GoesOn w plan tuning schedule p env →
    Seconds.le p.deadline (w.timer.now (pumped w p env tuning)) = true →
    p.afterSend (sendStint w p (pumped w p env tuning) plan).deal.outcome = .error stop →
    Laps w plan tuning schedule (fuel + 1) p env
      [pumpStint w p env tuning, sendStint w p (pumped w p env tuning) plan] (.error stop)
      (sent w (pumped w p env tuning) plan)
  /-- The message is sent or refused, but there is no next deadline. -/
  | astray {fuel p q env f} : GoesOn w plan tuning schedule p env →
    Seconds.le p.deadline (w.timer.now (pumped w p env tuning)) = true →
    p.afterSend (sendStint w p (pumped w p env tuning) plan).deal.outcome = .ok q →
    q.advanced schedule (sendStint w p (pumped w p env tuning) plan).finish = .error f →
    Laps w plan tuning schedule (fuel + 1) p env
      [pumpStint w p env tuning, sendStint w p (pumped w p env tuning) plan] (.error (.fault f))
      (sent w (pumped w p env tuning) plan)
  /-- The message is sent or refused, and the loop goes on with the next one. -/
  | sent {fuel p q r env stints result last} : GoesOn w plan tuning schedule p env →
    Seconds.le p.deadline (w.timer.now (pumped w p env tuning)) = true →
    p.afterSend (sendStint w p (pumped w p env tuning) plan).deal.outcome = .ok q →
    q.advanced schedule (sendStint w p (pumped w p env tuning) plan).finish = .ok r →
    Laps w plan tuning schedule fuel r (sent w (pumped w p env tuning) plan) stints result last →
    Laps w plan tuning schedule (fuel + 1) p env
      (pumpStint w p env tuning :: sendStint w p (pumped w p env tuning) plan :: stints) result last
  /-- The message is not due yet, and the sleep ends the loop. -/
  | woken {fuel p env stop} : GoesOn w plan tuning schedule p env →
    Seconds.le p.deadline (w.timer.now (pumped w p env tuning)) = false →
    (napStint w p (pumped w p env tuning) tuning).deal.outcome = .error stop →
    Laps w plan tuning schedule (fuel + 1) p env
      [pumpStint w p env tuning, napStint w p (pumped w p env tuning) tuning] (.error stop)
      (rested w p (pumped w p env tuning) tuning)
  /-- The message is not due yet, and the loop goes on after a sleep. -/
  | slept {fuel p env stints result last} : GoesOn w plan tuning schedule p env →
    Seconds.le p.deadline (w.timer.now (pumped w p env tuning)) = false →
    (napStint w p (pumped w p env tuning) tuning).deal.outcome = .ok () →
    Laps w plan tuning schedule fuel p (rested w p (pumped w p env tuning) tuning) stints result
      last →
    Laps w plan tuning schedule (fuel + 1) p env
      (pumpStint w p env tuning :: napStint w p (pumped w p env tuning) tuning :: stints)
      result last

variable {w : Surroundings τ σ η} {plan : Plan τ} {tuning : Tuning τ} {schedule : Schedule τ}
  {p : Progress τ} {s : Traced (Note τ) (Client σ η)}

/-- From `s` with progress `p` a part of the loop with some fuel ends, still active, as laps can. -/
def Lapped (w : Surroundings τ σ η) (plan : Plan τ) (tuning : Tuning τ) (schedule : Schedule τ)
    (fuel : Nat) (p : Progress τ) (s : Traced (Note τ) (Client σ η))
    (e : Except Stop (Progress τ) × Traced (Note τ) (Client σ η)) : Prop :=
  ∃ stints, Laps w plan tuning schedule fuel p s.state.env stints e.1 e.2.state.env ∧
    Client.Course w s (stints.map Stint.deal) e.2 ∧ e.2.state.phase = .active

omit [Seconds τ] in
/-- The deal of a request is that of its stint. -/
theorem requestDeal_eq (hactive : s.state.phase = .active) (r : Request τ) :
    Client.requestDeal w r s = (requestStint w p s.state.env r).deal := by
  rw [Client.requestDeal, hactive, requestStint]

/-- A turn with a send, from the environment that its pump has left. -/
theorem lapped_send {fuel : Nat} {t : Traced (Note τ) (Client σ η)}
    (hloop : ∀ r (u : Traced (Note τ) (Client σ η)), u.state.phase = .active →
      Lapped w plan tuning schedule fuel r u
        (Action.runFrom (loop w plan tuning schedule fuel r) u))
    (hon : GoesOn w plan tuning schedule p s.state.env)
    (hpump : Client.Course w s [(pumpStint w p s.state.env tuning).deal] t)
    (henv : t.state.env = pumped w p s.state.env tuning) (hactive : t.state.phase = .active)
    (hdue : Seconds.le p.deadline (w.timer.now (pumped w p s.state.env tuning)) = true) :
    Lapped w plan tuning schedule (fuel + 1) p s (Action.runFrom (do
      let sent ← send w plan p
      let next ← advance w schedule sent
      loop w plan tuning schedule fuel next) t) := by
  obtain ⟨u, hsend, hcourse, hu⟩ := send_course (w := w) plan p t
  rw [requestDeal_eq (p := p) hactive, henv] at hsend hcourse
  have hphase : u.state.phase = .active := by rw [hu, Client.asked_phase, hactive]
  have hleft : u.state.env = sent w (pumped w p s.state.env tuning) plan := by
    rw [hu, Client.asked_env, henv, sent]
  let pump := pumpStint w p s.state.env tuning
  let send := sendStint w p (pumped w p s.state.env tuning) plan
  have hboth : Client.Course w s ([pump, send].map Stint.deal) u := hpump.trans hcourse
  rw [Action.runFrom_bind, hsend]
  cases hafter : p.afterSend
      (requestStint w p (pumped w p s.state.env tuning) (sendRequest plan)).deal.outcome with
  | error stop =>
    refine ⟨[pump, send], ?_, hboth, hphase⟩
    simp only [hleft]
    exact .unsent hon hdue hafter
  | ok q =>
    obtain ⟨v, hadvance, hmore, hv⟩ := advance_course (w := w) schedule q u
    have hover : w.timer.now u.state.env =
        (sendStint w p (pumped w p s.state.env tuning) plan).finish := by
      rw [hleft]
      rfl
    rw [hover] at hadvance
    rw [← hv] at hphase hleft
    simp only [Action.runFrom_bind, hadvance]
    cases hadvanced : q.advanced schedule
        (sendStint w p (pumped w p s.state.env tuning) plan).finish with
    | error f =>
      refine ⟨[pump, send], ?_, hboth.trans hmore, hphase⟩
      simp only [Except.mapError, hleft]
      exact .astray hon hdue hafter hadvanced
    | ok r =>
      obtain ⟨stints, hstints, hdeals, hend⟩ := hloop r v hphase
      rw [hleft] at hstints
      exact ⟨pump :: send :: stints, .sent hon hdue hafter hadvanced hstints,
        (hboth.trans hmore).trans hdeals, hend⟩

/-- A turn with a sleep, from the environment that its pump has left. -/
theorem lapped_nap {fuel : Nat} {t : Traced (Note τ) (Client σ η)}
    (hloop : ∀ r (u : Traced (Note τ) (Client σ η)), u.state.phase = .active →
      Lapped w plan tuning schedule fuel r u
        (Action.runFrom (loop w plan tuning schedule fuel r) u))
    (hon : GoesOn w plan tuning schedule p s.state.env)
    (hpump : Client.Course w s [(pumpStint w p s.state.env tuning).deal] t)
    (henv : t.state.env = pumped w p s.state.env tuning) (hactive : t.state.phase = .active)
    (hahead : Seconds.le p.deadline (w.timer.now (pumped w p s.state.env tuning)) = false) :
    Lapped w plan tuning schedule (fuel + 1) p s (Action.runFrom (do
      Client.sleep w (nap p tuning (w.timer.now t.state.env))
      loop w plan tuning schedule fuel p) t) := by
  have hdeal : Client.sleepDeal w (nap p tuning (w.timer.now t.state.env)) t =
      (napStint w p (pumped w p s.state.env tuning) tuning).deal := by
    rw [← henv]
    rfl
  have hleft : (Client.slept w (nap p tuning (w.timer.now t.state.env)) t).state.env =
      rested w p (pumped w p s.state.env tuning) tuning := by
    rw [← henv]
    rfl
  have hsleep : Action.runFrom (Client.sleep w (nap p tuning (w.timer.now t.state.env))) t =
      ((napStint w p (pumped w p s.state.env tuning) tuning).deal.outcome,
        Client.slept w (nap p tuning (w.timer.now t.state.env)) t) := by
    rw [← hdeal]
    exact Client.sleep_eq _ t
  let pump := pumpStint w p s.state.env tuning
  let rest := napStint w p (pumped w p s.state.env tuning) tuning
  have hcourse : Client.Course w s ([pump, rest].map Stint.deal)
      (Client.slept w (nap p tuning (w.timer.now t.state.env)) t) := by
    have hboth := hpump.trans (.sleep (nap p tuning (w.timer.now t.state.env)) .stay)
    rwa [hdeal] at hboth
  rw [Action.runFrom_bind, hsleep]
  cases hend : (napStint w p (pumped w p s.state.env tuning) tuning).deal.outcome with
  | error stop =>
    refine ⟨[pump, rest], ?_, hcourse, hactive⟩
    simp only [hleft]
    exact .woken hon hahead hend
  | ok _ =>
    obtain ⟨stints, hstints, hdeals, hphase⟩ := hloop p (Client.slept w _ t) hactive
    rw [hleft] at hstints
    exact ⟨pump :: rest :: stints, .slept hon hahead hend hstints, hcourse.trans hdeals, hphase⟩

/-- Every loop goes through laps. -/
theorem loop_laps (fuel : Nat) (p : Progress τ) (s : Traced (Note τ) (Client σ η))
    (hactive : s.state.phase = .active) :
    Lapped w plan tuning schedule fuel p s
      (Action.runFrom (loop w plan tuning schedule fuel p) s) := by
  induction fuel generalizing p s with
  | zero => exact ⟨[], .spent, .stay, hactive⟩
  | succ fuel ih =>
    have hdeal : Client.requestDeal w (pumpRequest tuning p (w.timer.now s.state.env)) s =
        (pumpStint w p s.state.env tuning).deal := requestDeal_eq hactive _
    let pump := pumpStint w p s.state.env tuning
    have hpump : Client.Course w s ([pump].map Stint.deal)
        (Client.asked w (pumpRequest tuning p (w.timer.now s.state.env)) s) := by
      have hasked := Client.Course.request (pumpRequest tuning p (w.timer.now s.state.env))
        (.stay (w := w) (s := s))
      rwa [hdeal] at hasked
    have henv : (Client.asked w (pumpRequest tuning p (w.timer.now s.state.env)) s).state.env =
        pumped w p s.state.env tuning := Client.asked_env _ s
    have hphase :
        (Client.asked w (pumpRequest tuning p (w.timer.now s.state.env)) s).state.phase = .active :=
      (Client.asked_phase _ s).trans hactive
    rw [loop_eq]
    simp only [hdeal, henv]
    cases hbegins : isOver plan schedule (w.timer.now s.state.env) with
    | true => exact ⟨[], .finished hbegins, .stay, hactive⟩
    | false =>
      simp only [Bool.false_eq_true, if_false]
      cases hgoes : (pumpStint w p s.state.env tuning).deal.outcome with
      | error stop =>
        refine ⟨[pump], ?_, hpump, hphase⟩
        simp only [henv]
        exact .cut hbegins hgoes
      | ok _ =>
        cases hlate : isOver plan schedule (w.timer.now (pumped w p s.state.env tuning)) with
        | true =>
          refine ⟨[pump], ?_, hpump, hphase⟩
          simp only [henv, if_true]
          exact .late hbegins hgoes hlate
        | false =>
          have hon : GoesOn w plan tuning schedule p s.state.env := ⟨hbegins, hgoes, hlate⟩
          cases hdue : Seconds.le p.deadline (w.timer.now (pumped w p s.state.env tuning)) with
          | true => exact lapped_send ih hon hpump henv hphase hdue
          | false =>
            have hturn := lapped_nap ih hon hpump henv hphase hdue
            rwa [henv] at hturn

/-- A row of stints from one time to another. No time passes between two stints; the first one is a
pump, and every send comes right after a pump. -/
structure Row (begins : τ) (stints : List (Stint τ)) (ends : τ) : Prop where
  chain : stints.IsChain fun x y => x.finish = y.time ∧ (y.isSend = true → x.isPump = true)
  head : ∀ x ∈ stints.head?, x.time = begins ∧ x.isPump = true
  last : ∀ x ∈ stints.getLast?, x.finish = ends

omit [Seconds τ] in
theorem Row.nil (begins ends : τ) : Row begins [] ends where
  chain := .nil
  head _ hx := absurd hx (Option.not_mem_none _)
  last _ hx := absurd hx (Option.not_mem_none _)

omit [Seconds τ] in
theorem Row.single {x : Stint τ} {begins ends : τ} (hx : x.time = begins)
    (hpump : x.isPump = true) (hover : x.finish = ends) : Row begins [x] ends where
  chain := .singleton x
  head z hz := by
    obtain rfl : x = z := Option.some.inj hz
    exact ⟨hx, hpump⟩
  last z hz := by
    obtain rfl : x = z := Option.some.inj hz
    exact hover

omit [Seconds τ] in
/-- A pump and what comes right after it, in front of a row. -/
theorem Row.turn {x y : Stint τ} {stints : List (Stint τ)} {begins ends : τ}
    (hx : x.time = begins) (hpump : x.isPump = true) (hxy : x.finish = y.time)
    (hnil : stints = [] → y.finish = ends) (h : Row y.finish stints ends) :
    Row begins (x :: y :: stints) ends where
  chain := by
    refine .cons_cons ⟨hxy, fun _ => hpump⟩ ?_
    cases stints with
    | nil => exact .singleton y
    | cons z rest =>
      obtain ⟨hz, hpumps⟩ := h.head z rfl
      refine .cons_cons ⟨hz.symm, fun hsend => ?_⟩ h.chain
      -- what comes after the turn is a pump, so it is no send
      have hnone : z.isSend = false := by
        unfold Stint.isPump at hpumps
        unfold Stint.isSend Happening.isPublish
        split at hpumps
        · next heq => rw [heq]
        · cases hpumps
      rw [hnone] at hsend
      cases hsend
  head := by
    intro z hz
    obtain rfl : x = z := Option.some.inj hz
    exact ⟨hx, hpump⟩
  last := by
    intro z hz
    cases stints with
    | nil =>
      obtain rfl : y = z := Option.some.inj hz
      exact hnil rfl
    | cons a rest =>
      rw [List.getLast?_cons_cons, List.getLast?_cons_cons] at hz
      exact h.last z hz

/-- The stints of a loop are a row. -/
theorem Laps.row {fuel : Nat} {env last : σ} {stints : List (Stint τ)}
    {result : Except Stop (Progress τ)}
    (h : Laps w plan tuning schedule fuel p env stints result last) :
    Row (w.timer.now env) stints (w.timer.now last) ∧ (stints = [] → last = env) := by
  induction h with
  | spent => exact ⟨.nil _ _, fun _ => rfl⟩
  | finished _ => exact ⟨.nil _ _, fun _ => rfl⟩
  | cut _ _ => exact ⟨.single rfl rfl rfl, nofun⟩
  | late _ _ _ => exact ⟨.single rfl rfl rfl, nofun⟩
  | unsent _ _ _ => exact ⟨.turn rfl rfl rfl (fun _ => rfl) (.nil _ _), nofun⟩
  | astray _ _ _ _ => exact ⟨.turn rfl rfl rfl (fun _ => rfl) (.nil _ _), nofun⟩
  | woken _ _ _ => exact ⟨.turn rfl rfl rfl (fun _ => rfl) (.nil _ _), nofun⟩
  | sent _ _ _ _ _ ih =>
    refine ⟨.turn rfl rfl rfl (fun hnil => ?_) ih.1, nofun⟩
    rw [ih.2 hnil]
    rfl
  | slept _ _ _ _ ih =>
    refine ⟨.turn rfl rfl rfl (fun hnil => ?_) ih.1, nofun⟩
    rw [ih.2 hnil]
    rfl

/-- What the turns of a loop keep of its progress and its environment, as long as every stint is as
`Given` says. -/
structure Invariant (w : Surroundings τ σ η) (plan : Plan τ) (tuning : Tuning τ)
    (schedule : Schedule τ) (Given : Stint τ → Prop) (Inv : Progress τ → σ → Prop) : Prop where
  pump : ∀ p env, Inv p env → isOver plan schedule (w.timer.now env) = false →
    Given (pumpStint w p env tuning) → Inv p (pumped w p env tuning)
  send : ∀ p q r env, Inv p env → isOver plan schedule (w.timer.now env) = false →
    Seconds.le p.deadline (w.timer.now env) = true → Given (sendStint w p env plan) →
    p.afterSend (sendStint w p env plan).deal.outcome = .ok q →
    q.advanced schedule (sendStint w p env plan).finish = .ok r → Inv r (sent w env plan)
  nap : ∀ p env, Inv p env → isOver plan schedule (w.timer.now env) = false →
    Seconds.le p.deadline (w.timer.now env) = false → Given (napStint w p env tuning) →
    Inv p (rested w p env tuning)

/-- Nothing is kept if nothing is said. -/
theorem Invariant.trivial : Invariant w plan tuning schedule (fun _ => True) fun _ _ => True where
  pump _ _ _ _ _ := ⟨⟩
  send _ _ _ _ _ _ _ _ _ _ := ⟨⟩
  nap _ _ _ _ _ _ := ⟨⟩

/-- What every pump, every send and every sleep has, made where an invariant holds, every stint of a
loop has. -/
theorem Laps.forall_mem {Given : Stint τ → Prop} {Inv : Progress τ → σ → Prop}
    (hinv : Invariant w plan tuning schedule Given Inv) {P : Stint τ → Prop}
    (hpump : ∀ p env, Inv p env → isOver plan schedule (w.timer.now env) = false →
      P (pumpStint w p env tuning))
    (hsend : ∀ p env, Inv p env → isOver plan schedule (w.timer.now env) = false →
      Seconds.le p.deadline (w.timer.now env) = true → P (sendStint w p env plan))
    (hnap : ∀ p env, Inv p env → isOver plan schedule (w.timer.now env) = false →
      Seconds.le p.deadline (w.timer.now env) = false → P (napStint w p env tuning))
    {fuel : Nat} {env last : σ} {stints : List (Stint τ)} {result : Except Stop (Progress τ)}
    (h : Laps w plan tuning schedule fuel p env stints result last)
    (hgiven : ∀ x ∈ stints, Given x) (hp : Inv p env) : ∀ x ∈ stints, P x := by
  induction h with
  | spent => exact List.forall_mem_nil _
  | finished _ => exact List.forall_mem_nil _
  | cut hbegins _ => exact List.forall_mem_singleton.mpr (hpump _ _ hp hbegins)
  | late hbegins _ _ => exact List.forall_mem_singleton.mpr (hpump _ _ hp hbegins)
  | unsent hon hdue _ =>
    obtain ⟨hgivenPump, -⟩ := List.forall_mem_cons.mp hgiven
    have hp' := hinv.pump _ _ hp hon.begins hgivenPump
    exact List.forall_mem_cons.mpr ⟨hpump _ _ hp hon.begins,
      List.forall_mem_singleton.mpr (hsend _ _ hp' hon.remains hdue)⟩
  | astray hon hdue _ _ =>
    obtain ⟨hgivenPump, -⟩ := List.forall_mem_cons.mp hgiven
    have hp' := hinv.pump _ _ hp hon.begins hgivenPump
    exact List.forall_mem_cons.mpr ⟨hpump _ _ hp hon.begins,
      List.forall_mem_singleton.mpr (hsend _ _ hp' hon.remains hdue)⟩
  | woken hon hahead _ =>
    obtain ⟨hgivenPump, -⟩ := List.forall_mem_cons.mp hgiven
    have hp' := hinv.pump _ _ hp hon.begins hgivenPump
    exact List.forall_mem_cons.mpr ⟨hpump _ _ hp hon.begins,
      List.forall_mem_singleton.mpr (hnap _ _ hp' hon.remains hahead)⟩
  | sent hon hdue hafter hadvanced _ ih =>
    obtain ⟨hgivenPump, hgivenRest⟩ := List.forall_mem_cons.mp hgiven
    obtain ⟨hgivenSend, hgivenMore⟩ := List.forall_mem_cons.mp hgivenRest
    have hp' := hinv.pump _ _ hp hon.begins hgivenPump
    exact List.forall_mem_cons.mpr ⟨hpump _ _ hp hon.begins,
      List.forall_mem_cons.mpr ⟨hsend _ _ hp' hon.remains hdue,
        ih hgivenMore (hinv.send _ _ _ _ hp' hon.remains hdue hgivenSend hafter hadvanced)⟩⟩
  | slept hon hahead _ _ ih =>
    obtain ⟨hgivenPump, hgivenRest⟩ := List.forall_mem_cons.mp hgiven
    obtain ⟨hgivenNap, hgivenMore⟩ := List.forall_mem_cons.mp hgivenRest
    have hp' := hinv.pump _ _ hp hon.begins hgivenPump
    exact List.forall_mem_cons.mpr ⟨hpump _ _ hp hon.begins,
      List.forall_mem_cons.mpr ⟨hnap _ _ hp' hon.remains hahead,
        ih hgivenMore (hinv.nap _ _ hp' hon.remains hahead hgivenNap)⟩⟩

/-- A turn whose message is due and sent goes on with the next one, if there is one. -/
theorem Laps.of_due {q r : Progress τ} {fuel : Nat} {env last : σ} {stints : List (Stint τ)}
    {result : Except Stop (Progress τ)}
    (h : Laps w plan tuning schedule (fuel + 1) p env stints result last)
    (hon : GoesOn w plan tuning schedule p env)
    (hdue : Seconds.le p.deadline (w.timer.now (pumped w p env tuning)) = true)
    (hafter : p.afterSend (sendStint w p (pumped w p env tuning) plan).deal.outcome = .ok q)
    (hadvanced : q.advanced schedule (sendStint w p (pumped w p env tuning) plan).finish = .ok r) :
    ∃ rest, stints =
        pumpStint w p env tuning :: sendStint w p (pumped w p env tuning) plan :: rest ∧
      Laps w plan tuning schedule fuel r (Publisher.sent w (pumped w p env tuning) plan) rest result
        last := by
  cases h with
  | finished hover => exact nomatch hover.symm.trans hon.begins
  | cut _ hcut => exact nomatch hcut.symm.trans hon.pump
  | late _ _ hlate => exact nomatch hlate.symm.trans hon.remains
  | unsent _ _ hunsent => exact nomatch hunsent.symm.trans hafter
  | astray _ _ hafter' hastray =>
    obtain rfl := Except.ok.inj (hafter'.symm.trans hafter)
    exact nomatch hastray.symm.trans hadvanced
  | woken _ hahead _ => exact nomatch hahead.symm.trans hdue
  | slept _ hahead _ _ => exact nomatch hahead.symm.trans hdue
  | sent _ _ hafter' hadvanced' hrest =>
    obtain rfl := Except.ok.inj (hafter'.symm.trans hafter)
    obtain rfl := Except.ok.inj (hadvanced'.symm.trans hadvanced)
    exact ⟨_, rfl, hrest⟩

/-- A loop that ends with a value ends when the duration is over. -/
theorem Laps.isOver_of_ok {fuel : Nat} {env last : σ} {stints : List (Stint τ)} {q : Progress τ}
    (h : Laps w plan tuning schedule fuel p env stints (.ok q) last) :
    isOver plan schedule (w.timer.now last) = true := by
  generalize hresult : Except.ok q = result at h
  induction h with
  | finished hover => exact hover
  | late _ _ hlate => exact hlate
  | sent _ _ _ _ _ ih => exact ih hresult
  | slept _ _ _ _ ih => exact ih hresult
  | _ => cases hresult

end Laps

/-! ## §3 Runs -/

section Runs

variable [Seconds τ]

/-- The stints of a publisher on an open session, how its work ends, and the environment that it
leaves. -/
inductive Worked (w : Surroundings τ σ η) (plan : Plan τ) (tuning : Tuning τ) (fuel : Nat)
    (env : σ) : List (Stint τ) → Except Stop (Report τ) → σ → Prop
  /-- There can be no payload. -/
  | unfit {f} : plan.checkPayload w.memory = .error f →
    Worked w plan tuning fuel env [] (.error (.fault f)) env
  /-- There is no first deadline. -/
  | unscheduled {f} : plan.checkPayload w.memory = .ok () →
    (scheduleOf plan (w.timer.now env)).deadline 0 = .error f →
    Worked w plan tuning fuel env [] (.error (.fault f)) env
  /-- The loop begins. -/
  | looped {first stints result last} : plan.checkPayload w.memory = .ok () →
    (scheduleOf plan (w.timer.now env)).deadline 0 = .ok first →
    Laps w plan tuning (scheduleOf plan (w.timer.now env)) fuel { deadline := first } env stints
      result last →
    Worked w plan tuning fuel env stints
      (result.map (reportOf (w.timer.now env) (w.timer.now last))) last

variable {w : Surroundings τ σ η} {plan : Plan τ} {tuning : Tuning τ} {fuel : Nat}

theorem publishAll_worked (plan : Plan τ) (tuning : Tuning τ) (fuel : Nat)
    (s : Traced (Note τ) (Client σ η)) :
    ∃ stints, Worked w plan tuning fuel s.state.env stints
        (Action.runFrom (publishAll w plan tuning fuel) s).1
        (Action.runFrom (publishAll w plan tuning fuel) s).2.state.env ∧
      Client.Course w s (stints.map Stint.deal)
        (Action.runFrom (publishAll w plan tuning fuel) s).2 := by
  have hbegun : Client.Course w s [] (begun w plan s) := .enter _ (.log _ .stay)
  rw [publishAll_eq]
  dsimp only
  cases hpayload : plan.checkPayload w.memory with
  | error f => exact ⟨[], .unfit hpayload, .stay⟩
  | ok _ =>
    cases hfirst : (scheduleOf plan (w.timer.now s.state.env)).deadline 0 with
    | error f => exact ⟨[], .unscheduled hpayload hfirst, hbegun⟩
    | ok first =>
      have hloop : Lapped w plan tuning (scheduleOf plan (w.timer.now s.state.env)) fuel
          { deadline := first } (begun w plan s) (Action.runFrom (loop w plan tuning _ fuel
            { deadline := first }) (begun w plan s)) := loop_laps fuel _ _ rfl
      obtain ⟨stints, hstints, hdeals, -⟩ := hloop
      exact ⟨stints, .looped hpayload hfirst hstints, hbegun.trans hdeals⟩

/-- The stints of a run, how it ends, and the client that it leaves. A run begins with the request
to connect; if the publisher gets to its work and that ends, it closes with the request to
disconnect. -/
inductive Ran (w : Surroundings τ σ η) (plan : Plan τ) (tuning : Tuning τ) (fuel : Nat)
    (s : Traced (Note τ) (Client σ η)) :
    List (Stint τ) → Except Stop (Report τ) → Traced (Note τ) (Client σ η) → Prop
  /-- The session is not opened. -/
  | unopened {hello stop t} : hello.Asks .connect .connecting →
    Client.opening w s = .error stop → Client.Course w s [hello] t →
    Ran w plan tuning fuel s [] (.error stop) t
  /-- The work goes on for ever. -/
  | endless {hello stints last t} : hello.Asks .connect .connecting →
    Client.opening w s = .ok () →
    Worked w plan tuning fuel (Client.opened w s).state.env stints (.error .outOfFuel) last →
    Client.Course w s (hello :: stints.map Stint.deal) t →
    Ran w plan tuning fuel s stints (.error .outOfFuel) t
  /-- The work ends, and the session is closed. -/
  | closed {hello goodbye phase stints result last t} : hello.Asks .connect .connecting →
    goodbye.Asks .disconnect phase → Client.opening w s = .ok () →
    Worked w plan tuning fuel (Client.opened w s).state.env stints result last →
    result ≠ .error .outOfFuel →
    Client.Course w s (hello :: (stints.map Stint.deal ++ [goodbye])) t →
    Ran w plan tuning fuel s stints
      ((w.session.disconnect last).1.outcome.bind fun _ => result) t

/-- The stints of an action on a session whose body is the work of a publisher. -/
theorem onSession_ran (plan : Plan τ) (tuning : Tuning τ) (fuel : Nat)
    (s : Traced (Note τ) (Client σ η)) :
    ∃ stints, Ran w plan tuning fuel s stints
      (Action.runFrom (Client.onSession w (publishAll w plan tuning fuel)) s).1
      (Action.runFrom (Client.onSession w (publishAll w plan tuning fuel)) s).2 := by
  have hopened := Client.opened_course (w := w) s
  have hhello : (Client.requestDeal w .connect (Client.inPhase .connecting s)).Asks .connect
      .connecting := rfl
  have hgoodbye : ∀ u : Traced (Note τ) (Client σ η),
      (Client.requestDeal w .disconnect u).Asks .disconnect u.state.phase := fun _ => rfl
  obtain ⟨stints, hworked, hwork⟩ :=
    publishAll_worked (w := w) plan tuning fuel (Client.inPhase .connected (Client.opened w s))
  rw [Client.inPhase_env] at hworked
  have hend := Client.sessionEnd_run (w := w) (publishAll w plan tuning fuel) s
  generalize Action.runFrom (Client.onSession w (publishAll w plan tuning fuel)) s = e at hend
  obtain ⟨outcome, t⟩ := e
  dsimp only at hend
  cases hend with
  | unopened hopen => exact ⟨[], .unopened hhello hopen (hopened.enter .disconnected)⟩
  | waiting hopen => exact ⟨[], .unopened hhello hopen hopened⟩
  | endless hopen hrun =>
    rw [hrun] at hworked hwork
    exact ⟨stints, .endless hhello hopen hworked ((hopened.enter .connected).trans hwork)⟩
  | broken hopen hrun =>
    rw [hrun] at hworked hwork
    have hclosed := (hopened.enter .connected).trans (hwork.trans (Client.closed_course _))
    exact ⟨stints, .closed hhello (hgoodbye _) hopen hworked (Action.fault_ne_outOfFuel _) hclosed⟩
  | done hopen hrun =>
    rw [hrun] at hworked hwork
    have hclosed :=
      (hopened.enter .connected).trans ((hwork.enter .disconnecting).trans (Client.closed_course _))
    exact ⟨stints, .closed hhello (hgoodbye _) hopen hworked (Action.ok_ne_outOfFuel _) hclosed⟩

/-- A log record after a run adds nothing to it. -/
theorem Ran.log {s t : Traced (Note τ) (Client σ η)} {stints : List (Stint τ)}
    {outcome : Except Stop (Report τ)} (h : Ran w plan tuning fuel s stints outcome t)
    (record : LogRecord) :
    Ran w plan tuning fuel s stints outcome (Client.remarked w (.log record) t) := by
  cases h with
  | unopened hhello hopen hcourse => exact .unopened hhello hopen (hcourse.log record)
  | endless hhello hopen hworked hcourse =>
    exact .endless hhello hopen hworked (hcourse.log record)
  | closed hhello hgoodbye hopen hworked hfuel hcourse =>
    exact .closed hhello hgoodbye hopen hworked hfuel (hcourse.log record)

/-- Every run has its stints. -/
theorem run_ran (plan : Plan τ) (tuning : Tuning τ) (fuel : Nat)
    (s : Traced (Note τ) (Client σ η)) :
    ∃ stints, Ran w plan tuning fuel s stints (Action.runFrom (run w plan tuning fuel) s).1
      (Action.runFrom (run w plan tuning fuel) s).2 := by
  obtain ⟨stints, hran⟩ := onSession_ran (w := w) plan tuning fuel s
  rw [run, Action.runFrom_bind]
  generalize Action.runFrom (Client.onSession w (publishAll w plan tuning fuel)) s = e at hran
  obtain ⟨outcome, t⟩ := e
  cases outcome with
  | error stop => exact ⟨stints, hran⟩
  | ok report => exact ⟨stints, hran.log _⟩

/-- What a publisher returns after it has closed the session is what its work gave. -/
theorem eq_ok_of_bind {α : Type} {close : Except Stop Unit} {result : Except Stop α} {a : α}
    (h : (close.bind fun _ => result) = .ok a) : result = .ok a := by
  cases close with
  | error stop => cases h
  | ok _ => exact h

/-- A run without a loop has no stints and does not return; otherwise its stints are the laps of the
loop, and what it returns is the report on that. -/
theorem Ran.laps {s t : Traced (Note τ) (Client σ η)} {stints : List (Stint τ)}
    {outcome : Except Stop (Report τ)} (h : Ran w plan tuning fuel s stints outcome t) :
    let env := (Client.opened w s).state.env
    let schedule := scheduleOf plan (w.timer.now env)
    stints = [] ∧ (∀ report, outcome ≠ .ok report) ∨
      ∃ first result last, schedule.deadline 0 = .ok first ∧
        Laps w plan tuning schedule fuel { deadline := first } env stints result last ∧
        ∀ report, outcome = .ok report →
          ∃ q, result = .ok q ∧ report = reportOf schedule.start (w.timer.now last) q := by
  intro env schedule
  have hworked : ∀ {result last}, Worked w plan tuning fuel env stints result last →
      (∀ report, outcome = .ok report → result = .ok report) →
      stints = [] ∧ (∀ report, outcome ≠ .ok report) ∨
        ∃ first result last, schedule.deadline 0 = .ok first ∧
          Laps w plan tuning schedule fuel { deadline := first } env stints result last ∧
          ∀ report, outcome = .ok report →
            ∃ q, result = .ok q ∧ report = reportOf schedule.start (w.timer.now last) q := by
    intro result last hwork hreturned
    cases hwork with
    | unfit _ => exact .inl ⟨rfl, fun report hreport => nomatch hreturned report hreport⟩
    | unscheduled _ _ => exact .inl ⟨rfl, fun report hreport => nomatch hreturned report hreport⟩
    | @looped first _ result _ _ hfirst hlaps =>
      refine .inr ⟨first, result, last, hfirst, hlaps, fun report hreport => ?_⟩
      cases result with
      | error stop => exact nomatch hreturned report hreport
      | ok q => exact ⟨q, rfl, (Except.ok.inj (hreturned report hreport)).symm⟩
  cases h with
  | unopened _ _ _ => exact .inl ⟨rfl, nofun⟩
  | endless _ _ hwork _ => exact hworked hwork nofun
  | closed _ _ _ hwork _ _ => exact hworked hwork fun _ => eq_ok_of_bind

/-- Besides its stints a run is one request to connect and at most one to disconnect. -/
theorem Ran.deeds (quiet : w.session.Quiet) {s t : Traced (Note τ) (Client σ η)}
    {stints : List (Stint τ)} {outcome : Except Stop (Report τ)}
    (h : Ran w plan tuning fuel s stints outcome t) :
    ∃ (hello : Deal τ) (goodbyes : List (Deal τ)), Client.deeds t = Client.deeds s ++
        hello.note :: (stints.map (·.deal.note) ++ goodbyes.map Deal.note) ∧
      hello.Asks .connect .connecting ∧ goodbyes.length ≤ 1 ∧
      ∀ d ∈ goodbyes, ∃ phase, d.Asks .disconnect phase := by
  cases h with
  | unopened hhello _ hcourse =>
    exact ⟨_, [], hcourse.deeds quiet, hhello, Nat.zero_le 1, List.forall_mem_nil _⟩
  | endless hhello _ _ hcourse =>
    refine ⟨_, [], ?_, hhello, Nat.zero_le 1, List.forall_mem_nil _⟩
    rw [hcourse.deeds quiet, List.map_cons, List.map_map, List.map_nil, List.append_nil]
    rfl
  | closed hhello hgoodbye _ _ _ hcourse =>
    refine ⟨_, [_], ?_, hhello, Nat.le_refl 1, List.forall_mem_singleton.mpr ⟨_, hgoodbye⟩⟩
    rw [hcourse.deeds quiet, List.map_cons, List.map_append, List.map_map]
    rfl

/-- The sends of a run are those among its stints. -/
theorem Ran.publishes (quiet : w.session.Quiet) {s t : Traced (Note τ) (Client σ η)}
    {stints : List (Stint τ)} {outcome : Except Stop (Report τ)}
    (h : Ran w plan tuning fuel s stints outcome t) :
    Client.publishes t =
      Client.publishes s ++ (stints.filter Stint.isSend).map (·.deal.note) := by
  obtain ⟨hello, goodbyes, hdeeds, hhello, -, hgoodbyes⟩ := h.deeds quiet
  have hconnect : hello.note.happening.isPublish = false := by rw [hhello]; rfl
  have hdisconnect : (goodbyes.map Deal.note).filter (·.happening.isPublish) = [] := by
    refine List.filter_eq_nil_iff.mpr fun n hn => ?_
    obtain ⟨d, hd, rfl⟩ := List.mem_map.mp hn
    obtain ⟨phase, hasks⟩ := hgoodbyes d hd
    rw [hasks]
    exact Bool.false_ne_true
  rw [Client.publishes_eq, hdeeds, List.filter_append, ← Client.publishes_eq,
    List.filter_cons_of_neg (by rw [hconnect]; exact Bool.false_ne_true), List.filter_append,
    hdisconnect, List.append_nil, List.filter_map]
  rfl

end Runs

end Publisher

end BrokerLoad
