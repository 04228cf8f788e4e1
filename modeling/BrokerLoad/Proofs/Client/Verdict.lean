import BrokerLoad.Proofs.Client.Lone
import BrokerLoad.Proofs.Client.Overshoot
import BrokerLoad.Proofs.Client.Publishing

/-!
# When a publisher fails by itself

On surroundings that never fail by themselves a publisher fails if there can be no payload, if its
interval is infinite, or if it cannot be told after some send which deadline is due. The last of
these never happens if sends take no time, whatever the finite interval is, within any number of
turns that a run can have. What is left is the infinite interval: a plan may have one, and should
send one message, but the publisher's first deadline is then no number.

## Main definitions

* `Publisher.Verdict`: when a run faults, and when it sends once.
* `Surroundings.punctual`: surroundings where everything takes just as long as it was asked to.

## Main statements

* `Publisher.run_verdict`: the verdict on every run on surroundings that never fail by themselves.
* `Publisher.infinite_interval_faults`: a run with an infinite interval that fails.
-/

namespace BrokerLoad

variable {σ η : Type}

namespace Publisher

/-! ## §1 Verdicts -/

/-- When a run on steady surroundings faults that starts at `start`, and when it sends once. -/
structure Verdict (w : Surroundings Double σ η) (plan : Plan Double) (tuning : Tuning Double)
    (fuel : Nat) (start : Double) (stints : List (Stint Double))
    (outcome : Except Stop (Report Double)) : Prop where
  /-- There can be no payload, or the first sleep is refused because the interval is infinite, or it
  cannot be told after some send which deadline is due. -/
  faults : (∃ f, outcome = .error (.fault f)) ↔
    plan.checkPayload w.memory ≠ .ok () ∨
      (plan.interval.isFinite = false ∧ fuel ≠ 0 ∧
        plan.duration.le (start + Seconds.max Seconds.zero tuning.ioSlice - start) = false) ∨
      ∃ x ∈ stints, x.Astray (scheduleOf plan start)
  /-- With an infinite interval nothing is sent. -/
  silent : plan.interval.isFinite = false → ∀ x ∈ stints, x.isSend = false
  /-- With a finite one it can be told which deadline is due if the quotient is finite. -/
  told : ∀ x ∈ stints, ((x.finish - start) / plan.interval).isFinite = true →
    ¬ x.Astray (scheduleOf plan start)
  /-- If sends take no time, the run does not fault with a finite interval, unless there can be no
  payload, or that interval is all too short for the duration and the run all too long. -/
  prompt : w.Prompt → plan.checkPayload w.memory = .ok () → plan.interval.isFinite = true →
    fuel ≤ 2 ^ 46 ∨ (plan.duration / plan.interval).isFinite = true →
      ∀ f, outcome ≠ .error (.fault f)
  /-- If sends take no time, and the interval is as long as the duration, also after rounding, the
  run does not fault and sends once, at the start. -/
  single : w.Prompt → plan.checkPayload w.memory = .ok () → plan.interval.isFinite = true →
    plan.duration.le (start + plan.interval - start) = true → fuel ≠ 0 →
      (∀ f, outcome ≠ .error (.fault f)) ∧
        ∃ x, stints.filter Stint.isSend = [x] ∧ x.time.eq start = true

section Run

variable {w : Surroundings Double σ η} {plan : Plan Double} {tuning : Tuning Double} {fuel : Nat}

/-- On steady surroundings a run ends as its work does. -/
theorem Ran.worked_of_steady (steady : w.Steady) {s t : Traced (Note Double) (Client σ η)}
    {stints : List (Stint Double)} {outcome : Except Stop (Report Double)}
    (h : Ran w plan tuning fuel s stints outcome t) :
    ∃ last, Worked w plan tuning fuel (Client.opened w s).state.env stints outcome last := by
  cases h with
  | unopened _ hopen _ => exact nomatch (steady.connect s.state.env).symm.trans hopen
  | endless _ _ hworked _ => exact ⟨_, hworked⟩
  | @closed _ _ _ _ _ last _ _ _ _ hworked _ _ =>
    rw [steady.disconnect last]
    exact ⟨last, hworked⟩

/-- A report on a loop is a fault if the loop ended in one. -/
theorem map_fault_iff {result : Except Stop (Progress Double)}
    {report : Progress Double → Report Double} :
    (∃ f, result.map report = .error (.fault f)) ↔ ∃ f, result = .error (.fault f) := by
  cases result with
  | ok q => exact ⟨fun ⟨_, hf⟩ => (nomatch hf), fun ⟨_, hf⟩ => (nomatch hf)⟩
  | error stop => exact ⟨fun ⟨f, hf⟩ => ⟨f, by cases hf; rfl⟩, fun ⟨f, hf⟩ => ⟨f, by cases hf; rfl⟩⟩

section Verdict

variable {start first : Double} {env last : σ} {stints : List (Stint Double)}
  {result : Except Stop (Progress Double)} (steady : w.Steady)
  (hduration : plan.duration.isFinite = true) (hquantum : tuning.pollQuantum.lt 0 = false)
  (hfuel : fuel < twoPow 970) (hstart : start.isFinite = true) (hnow : w.timer.now env = start)
  (hpayload : plan.checkPayload w.memory = .ok ())
  (hfirst : (scheduleOf plan start).deadline 0 = .ok first)
  (h : Laps w plan tuning (scheduleOf plan start) fuel { deadline := first } env stints result last)
  (report : Progress Double → Report Double)

include steady hstart hnow hpayload hfirst h

/-- The verdict on a loop with an infinite interval. -/
theorem verdict_of_infinite (hinterval : plan.interval.isFinite = false) :
    Verdict w plan tuning fuel start stints (result.map report) := by
  obtain rfl := deadline_zero_of_infinite hfirst hinterval
  obtain ⟨hsilent, hfaults⟩ := h.of_infinite steady hstart hnow
  have htold : ∀ x ∈ stints, ¬ x.Astray (scheduleOf plan start) :=
    fun x hx => not_astray (hsilent x hx)
  have hnever : plan.interval.isFinite ≠ true := fun h =>
    Bool.false_ne_true (hinterval.symm.trans h)
  refine ⟨?_, fun _ => hsilent, fun x hx _ => htold x hx, fun _ _ h => absurd h hnever,
    fun _ _ h => absurd h hnever⟩
  rw [map_fault_iff, hfaults]
  constructor
  · exact fun h => .inr (.inl ⟨hinterval, h⟩)
  · rintro (hunfit | ⟨-, h⟩ | ⟨x, hx, hastray⟩)
    · exact absurd hpayload hunfit
    · exact h
    · exact absurd hastray (htold x hx)

include hduration hquantum hfuel

/-- The verdict on a loop with a finite interval. -/
theorem verdict_of_finite (hinterval : plan.interval.isFinite = true) :
    Verdict w plan tuning fuel start stints (result.map report) := by
  have hbegin : Dated (scheduleOf plan start) { deadline := first } (w.timer.now env) :=
    .begin hstart hnow hfirst
  have hfaults := h.faults_iff steady hstart hduration hinterval hquantum hfuel le_rfl
    (Int.add_le_add_right (Int.natCast_nonneg largestInteger) _) hbegin
  have hfinite : plan.interval.isFinite ≠ false := fun h =>
    Bool.false_ne_true (h.symm.trans hinterval)
  have htold := h.told steady hstart hduration hinterval hquantum hbegin
  have hwell : (∀ x ∈ stints, ¬ x.Astray (scheduleOf plan start)) →
      ∀ f, result.map report ≠ .error (.fault f) := fun hnone f hf => by
    obtain ⟨x, hx, hastray⟩ := hfaults.mp (map_fault_iff.mp ⟨f, hf⟩)
    exact hnone x hx hastray
  refine ⟨?_, fun h => absurd h hfinite, htold, fun hprompt _ _ hshort => hwell ?_,
    fun hprompt _ _ hlong hsome => ?_⟩
  · rw [map_fault_iff, hfaults]
    constructor
    · exact fun h => .inr (.inr h)
    · rintro (hunfit | ⟨hinfinite, -⟩ | h)
      · exact absurd hpayload hunfit
      · exact absurd hinfinite hfinite
      · exact h
  · rcases hshort with hfew | hquotient
    · exact h.not_astray_of_prompt steady hprompt hstart hduration hinterval hquantum hfew
        hfirst hnow
    · exact h.not_astray_of_quotient steady hstart hduration hprompt hinterval hquantum
        hquotient hbegin
  · obtain ⟨hsingle, hnone⟩ :=
      h.single steady hstart hduration hinterval hquantum hlong hprompt hfirst hsome hnow
    exact ⟨hwell hnone, hsingle⟩

end Verdict

/-- A publisher on steady surroundings whose clock starts at a finite time, with a plan of a finite
duration and fuel for no more turns than there are indices. Its requests to publish are the sends
among its stints; it is said when it faults, and when it sends once. -/
theorem run_verdict (steady : w.Steady) (plan : Plan Double)
    (hduration : plan.duration.isFinite = true) (tuning : Tuning Double)
    (hquantum : tuning.pollQuantum.lt 0 = false) {fuel : Nat} (hfuel : fuel < twoPow 970)
    (s : Traced (Note Double) (Client σ η))
    (hstart : (w.timer.now (Client.opened w s).state.env).isFinite = true) :
    let start := w.timer.now (Client.opened w s).state.env
    let e := Action.runFrom (run w plan tuning fuel) s
    ∃ stints, Ran w plan tuning fuel s stints e.1 e.2 ∧
      Client.publishes e.2 =
        Client.publishes s ++ (stints.filter Stint.isSend).map (·.deal.note) ∧
      Verdict w plan tuning fuel start stints e.1 := by
  intro start e
  obtain ⟨stints, hran⟩ := run_ran (w := w) plan tuning fuel s
  refine ⟨stints, hran, hran.publishes steady.quiet, ?_⟩
  obtain ⟨last, hworked⟩ := hran.worked_of_steady steady
  change Worked w plan tuning fuel _ stints e.1 last at hworked
  generalize e.1 = outcome at hworked
  cases hworked with
  | @unfit f hpayload =>
    have hunfit : plan.checkPayload w.memory ≠ .ok () := by
      rw [hpayload]
      nofun
    exact ⟨⟨fun _ => .inl hunfit, fun _ => ⟨f, rfl⟩⟩, fun _ => List.forall_mem_nil _,
      List.forall_mem_nil _, fun _ hfit => absurd hfit hunfit, fun _ hfit => absurd hfit hunfit⟩
  | unscheduled _ hfirst =>
    -- the first deadline can always be computed
    have hbound : (0 : Int) ≤ largestInteger + (0 : Nat) := Int.natCast_nonneg _
    obtain ⟨first, hok⟩ := exists_deadline (scheduleOf plan start) le_rfl (twoPow_pos 970) hbound
    exact nomatch hok.symm.trans hfirst
  | looped hpayload hfirst hlaps =>
    cases hinterval : plan.interval.isFinite with
    | false => exact verdict_of_infinite steady hstart rfl hpayload hfirst hlaps _ hinterval
    | true =>
      exact verdict_of_finite steady hduration hquantum hfuel hstart rfl hpayload hfirst hlaps _
        hinterval

end Run

end Publisher

/-! ## §2 Punctual surroundings -/

/-- Surroundings where everything takes just as long as it was asked to, and a send no time at all.
The state is the time. -/
def Surroundings.punctual : Surroundings Double Double Unit where
  session :=
    { connect := fun now => (⟨.ok (), []⟩, now)
      disconnect := fun now => (⟨.ok (), []⟩, now)
      subscribe := fun _ _ now => (⟨.ok (), []⟩, now)
      publish := fun _ _ _ now => (⟨.ok (), []⟩, now)
      pump := fun t now => (⟨.ok (), []⟩, now + t) }
  timer :=
    { now := id
      sleep := fun t now =>
        match sleepFault? t none with
        | some f => (.error f, now)
        | none => (.ok (), now + t) }
  handler := { accept := fun _ _ => id }

theorem Surroundings.punctual_prompt : Surroundings.punctual.Prompt := fun _ _ _ _ => rfl

theorem Surroundings.punctual_steady : Surroundings.punctual.Steady where
  quiet r s n hn := by
    have hnone : (Surroundings.punctual.session.answer r s).1.notes = [] := by
      cases r <;> rfl
    rw [hnone] at hn
    cases hn
  connect _ := rfl
  disconnect _ := rfl
  pump _ _ := ⟨rfl, rfl⟩
  publish _ _ _ env := ⟨rfl, fun hne => Double.le_iff.mpr ⟨hne, hne, le_rfl⟩⟩
  sleep t env h := by
    have hsleep : Surroundings.punctual.timer.sleep t env = (.ok (), env + t) := by
      change (match sleepFault? t none with | some f => _ | none => _) = _
      rw [h]
    rw [hsleep]
    exact ⟨rfl, rfl⟩
  refuse t env f h := by
    have hsleep : Surroundings.punctual.timer.sleep t env = (.error f, env) := by
      change (match sleepFault? t none with | some f => _ | none => _) = _
      rw [h]
    rw [hsleep]

namespace Publisher

theorem half_second_pos : Seconds.lt Seconds.zero (Seconds.ofDecimal 5 (-1) : Double) = true := by
  decide +kernel

/-- A plan for half a second, with the settings of the plan for eight. -/
def halfSecond (interval : Double) (hinterval : Seconds.lt Seconds.zero interval = true) :
    Plan Double where
  publishers := 1
  subscribers := 0
  payloadSize := 3
  duration := Seconds.ofDecimal 5 (-1)
  interval := interval
  settings := eightSeconds.settings
  duration_pos := half_second_pos
  interval_pos := hinterval

/-- A run for half a second that begins at time zero. -/
def halfSecondRun (interval : Double) (hinterval : Seconds.lt Seconds.zero interval = true) :
    Except Stop (Report Double) × Traced (Note Double) (Client Double Unit) :=
  Action.runFrom (run Surroundings.punctual (halfSecond interval hinterval) .standard 20)
    ⟨{ env := 0, kept := () }, []⟩

/-- With a message every two seconds it sends once, at the start. With the shortest interval there
is it does not fail either, though the quotient of the duration by that is infinite. -/
theorem long_interval_sends_once :
    let shortest : Double := Seconds.ofDecimal 5 (-324)
    let long := halfSecondRun 2 (by decide +kernel)
    let short := halfSecondRun shortest (by decide +kernel)
    (∀ f, long.1 ≠ .error (.fault f)) ∧
      (∃ n, Client.publishes long.2 = [n] ∧ n.time.eq 0 = true) ∧
      (Seconds.ofDecimal 5 (-1) / shortest).isFinite = false ∧
      ∀ f, short.1 ≠ .error (.fault f) := by
  have hfuel : 20 < twoPow 970 := by decide +kernel
  obtain ⟨stints, -, hpublishes, verdict⟩ :=
    run_verdict Surroundings.punctual_steady (halfSecond 2 (by decide +kernel)) (by decide +kernel)
      .standard (by decide +kernel) hfuel ⟨{ env := 0, kept := () }, []⟩ (by decide +kernel)
  obtain ⟨hfaultless, x, hx, htime⟩ :=
    verdict.single Surroundings.punctual_prompt rfl (by decide +kernel) (by decide +kernel)
      (by decide)
  obtain ⟨_, -, -, shortVerdict⟩ :=
    run_verdict Surroundings.punctual_steady
      (halfSecond (Seconds.ofDecimal 5 (-324)) (by decide +kernel)) (by decide +kernel)
      .standard (by decide +kernel) hfuel ⟨{ env := 0, kept := () }, []⟩ (by decide +kernel)
  refine ⟨hfaultless, ⟨x.deal.note, ?_, htime⟩, by decide +kernel,
    shortVerdict.prompt Surroundings.punctual_prompt rfl (by decide +kernel) (.inl (by decide))⟩
  rw [hx] at hpublishes
  exact hpublishes

/-- With an infinite interval it ends in a fault, and nothing is sent. -/
theorem infinite_interval_faults :
    let plan := halfSecond (.infinite false) (by decide +kernel)
    let e := halfSecondRun (.infinite false) (by decide +kernel)
    Surroundings.punctual.Steady ∧ Surroundings.punctual.Prompt ∧ plan.duration.isFinite = true ∧
      plan.duration.le plan.interval = true ∧
      e.1 = .error (.fault (.value (.other "Invalid value NaN (not a number)"))) ∧
      Client.publishes e.2 = [] := by
  refine ⟨Surroundings.punctual_steady, Surroundings.punctual_prompt, by decide +kernel,
    by decide +kernel, ?_, List.isEmpty_iff.mp (by decide +kernel)⟩
  have hend : (match (halfSecondRun (.infinite false) (by decide +kernel)).1 with
      | .ok _ => none
      | .error stop => some stop) =
        some (.fault (.value (.other "Invalid value NaN (not a number)"))) := by decide +kernel
  generalize (halfSecondRun (.infinite false) (by decide +kernel)).1 = outcome at hend ⊢
  cases outcome with
  | ok report => cases hend
  | error stop => exact congrArg Except.error (Option.some.inj hend)

end Publisher

end BrokerLoad
