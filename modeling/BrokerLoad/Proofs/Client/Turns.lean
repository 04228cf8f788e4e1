import BrokerLoad.Proofs.Client.Loops
import Mathlib.Data.Rat.Floor

/-!
# The turns of a publisher

A turn of the publisher's loop ends the loop because the duration is over, sends the message because
its deadline has come, or sleeps toward the deadline. Here a turn is described for any surroundings,
with exact times: which way it takes, and what a send and the choice of the next deadline do to the
client.

## Main definitions

* `Publisher.Progress.atDeadline`: the progress after the choice of the next deadline.
* `Publisher.slice`: how long the connection works in a turn.

## Main statements

* `Publisher.send_run`, `Publisher.advance_run`: the two parts of a turn with a send.
* `Publisher.loop_over`, `Publisher.loop_pump`: the ways of a turn.
-/

namespace BrokerLoad

variable {σ η : Type}

/-! ## §1 Exact times -/

theorem Seconds.min_rat (x y : Rat) : Seconds.min x y = Min.min x y := by
  by_cases h : y < x
  · simp [Seconds.min, Seconds.lt, h, h.le]
  · simp [Seconds.min, Seconds.lt, h, not_lt.mp h]

theorem Seconds.max_rat (x y : Rat) : Seconds.max x y = Max.max x y := by
  by_cases h : x < y
  · simp [Seconds.max, Seconds.lt, h, h.le]
  · simp [Seconds.max, Seconds.lt, h, not_lt.mp h]

theorem Seconds.le_rat (x y : Rat) : Seconds.le x y = true ↔ x ≤ y := decide_eq_true_iff

theorem Seconds.sub_rat (x y : Rat) : Seconds.sub x y = x - y := rfl

theorem Schedule.deadline_rat (schedule : Schedule Rat) {k : Int} (hk : 0 ≤ k) :
    schedule.deadline k = .ok (schedule.start + k * schedule.interval) := by
  rw [Schedule.deadline, if_neg (not_lt.mpr hk)]
  rfl

theorem Schedule.lastDue_rat (schedule : Schedule Rat) {now : Rat} (hnow : schedule.start ≤ now) :
    schedule.lastDue now = .ok ⌊(now - schedule.start) / schedule.interval⌋ := by
  have h : Seconds.lt now schedule.start = false := decide_eq_false (not_lt.mpr hnow)
  rw [Schedule.lastDue, h]
  rfl

namespace Publisher

variable {w : Surroundings Rat σ η} {tuning : Tuning Rat} {s t : Traced (Note Rat) (Client σ η)}

/-! ## §2 A send and the next deadline -/

/-- The progress at the deadline with a given index. -/
def Progress.atDeadline (schedule : Schedule Rat) (p : Progress Rat) (index : Int) : Progress Rat :=
  { p with index, deadline := schedule.start + index * schedule.interval }

theorem send_run (quiet : w.session.Quiet) (plan : Plan Rat) (p : Progress Rat)
    (s : Traced (Note Rat) (Client σ η)) :
    ∃ t, Action.runFrom (send w plan p) s =
        (p.afterSend (w.session.answer
          (.publish plan.settings.topic plan.payload plan.settings.qos) s.state.env).1.outcome, t) ∧
      Client.Does s (w.session.answer
          (.publish plan.settings.topic plan.payload plan.settings.qos) s.state.env).2
        [⟨w.timer.now s.state.env,
          .request (.publish plan.settings.topic plan.payload plan.settings.qos) s.state.phase⟩]
        t := by
  obtain ⟨t, hrun, hcourse, hstate⟩ := send_course plan p s
  refine ⟨t, hrun, ?_, ?_, hcourse.deeds quiet⟩
  · rw [hstate, Client.asked_env, sendRequest]
  · rw [hstate, Client.asked_phase]

/-- With exact times the choice of the next deadline always succeeds. -/
theorem Progress.advanced_rat (schedule : Schedule Rat) (p : Progress Rat) {now : Rat}
    (hstart : schedule.start ≤ now) (hindex : 0 ≤ p.index) :
    p.advanced schedule now = .ok (p.atDeadline schedule
      (max (p.index + 1) ⌊(now - schedule.start) / schedule.interval⌋)) := by
  rw [Progress.advanced, schedule.lastDue_rat hstart, Except.bind,
    schedule.deadline_rat (le_max_of_le_left (by omega))]
  rfl

theorem advance_run (schedule : Schedule Rat) (p : Progress Rat)
    (hstart : schedule.start ≤ w.timer.now s.state.env) (hindex : 0 ≤ p.index) :
    ∃ t, Action.runFrom (advance w schedule p) s =
        (.ok (p.atDeadline schedule (max (p.index + 1)
          ⌊(w.timer.now s.state.env - schedule.start) / schedule.interval⌋)), t) ∧
      Client.Does s s.state.env [] t := by
  obtain ⟨t, hrun, hcourse, hstate⟩ := advance_course (w := w) schedule p s
  rw [p.advanced_rat schedule hstart hindex] at hrun
  refine ⟨t, hrun, by rw [hstate], by rw [hstate], ?_⟩
  rw [hcourse.still.2, List.append_nil]

/-! ## §3 The ways of a turn -/

/-- How long the connection works in a turn that begins at `now`. -/
def slice (tuning : Tuning Rat) (p : Progress Rat) (now : Rat) : Rat :=
  max 0 (min tuning.ioSlice (p.deadline - now))

theorem pumpRequest_rat (tuning : Tuning Rat) (p : Progress Rat) (now : Rat) :
    pumpRequest tuning p now = .pump (slice tuning p now) := by
  rw [pumpRequest, Seconds.max_rat, Seconds.min_rat]
  rfl

theorem isOver_rat (plan : Plan Rat) (schedule : Schedule Rat) (now : Rat) :
    isOver plan schedule now = true ↔ plan.duration ≤ now - schedule.start := decide_eq_true_iff

variable (plan : Plan Rat) (schedule : Schedule Rat) (p : Progress Rat) (fuel : Nat)

/-- The duration is over at the beginning of the turn. -/
theorem loop_over (hover : plan.duration ≤ w.timer.now s.state.env - schedule.start) :
    Action.runFrom (loop w plan tuning schedule (fuel + 1) p) s = (.ok p, s) := by
  rw [loop_eq, if_pos ((isOver_rat plan schedule _).mpr hover)]

/-- A turn that begins before the duration is over: the connection works, and if the duration is not
over then, either the message is due and is sent, or the publisher sleeps toward its deadline. -/
theorem loop_pump (hbefore : ¬ plan.duration ≤ w.timer.now s.state.env - schedule.start)
    (hpump : Action.runFrom
      (Client.request w (.pump (slice tuning p (w.timer.now s.state.env)))) s = (.ok (), t)) :
    Action.runFrom (loop w plan tuning schedule (fuel + 1) p) s =
      if plan.duration ≤ w.timer.now t.state.env - schedule.start then (.ok p, t)
      else if p.deadline ≤ w.timer.now t.state.env then
        Action.runFrom (do
          let sent ← send w plan p
          let next ← advance w schedule sent
          loop w plan tuning schedule fuel next) t
      else
        Action.runFrom (do
          Client.sleep w (min (p.deadline - w.timer.now t.state.env) tuning.pollQuantum)
          loop w plan tuning schedule fuel p) t := by
  rw [Client.request_eq] at hpump
  obtain ⟨hok, rfl⟩ := Prod.mk.inj hpump
  rw [loop_eq, pumpRequest_rat, Client.requestDeal, hok, if_neg (by rwa [isOver_rat])]
  simp only [isOver_rat, Seconds.le_rat, Seconds.sub_rat, Seconds.min_rat]

end Publisher

end BrokerLoad
