import BrokerLoad.Proofs.Client.Rounded

/-!
# One message, or none

With an interval that is as long as the duration a publisher should send a single message, at its
start. It does if the interval is finite, sends take no time, and rounding leaves the second
deadline beyond the end. With an infinite interval it sends nothing: the first deadline is no
number, so that nothing is ever due, and the first sleep is refused.

## Main statements

* `Publisher.Laps.single`: a loop with a long finite interval sends once, at the start.
* `Publisher.Laps.of_infinite`: a loop with an infinite interval sends nothing, and when it faults.
-/

namespace BrokerLoad.Publisher

variable {σ η : Type} {w : Surroundings Double σ η} {plan : Plan Double} {tuning : Tuning Double}
  {p q r : Progress Double} {start : Double}

/-! ## §1 A long finite interval -/

/-- If the interval is as long as the duration, also after rounding, the second deadline does not
come before the end. -/
theorem not_due (hstart : start.isFinite = true) (hduration : plan.duration.isFinite = true)
    (hinterval : plan.interval.isFinite = true)
    (hlong : plan.duration.le (start + plan.interval - start) = true) {second now : Double}
    (hsecond : (scheduleOf plan start).deadline 1 = .ok second) (hnow : start.le now = true)
    (hover : isOver plan (scheduleOf plan start) now = false) : second.le now = false := by
  rw [← Bool.not_eq_true]
  intro hdue
  have hnowFinite := isFinite_of_isOver hstart hduration hnow hover
  have hbegun := le_deadline Int.one_nonneg hsecond hstart hinterval
  have hfinite := Double.isFinite_of_between hstart hnowFinite hbegun hdue
  obtain ⟨-, hplace⟩ := place_deadline_one hsecond hstart hinterval
  have hsumFinite : (start + plan.interval).isFinite = true :=
    Double.isFinite_of_place hfinite (Double.place_add hstart hinterval).1 hplace.symm
  -- what the deadline is from the start is what the interval comes to after rounding
  have hsame : (second - start).place = (start + plan.interval - start).place := by
    rw [(Double.place_sub hfinite hstart).2, (Double.place_sub hsumFinite hstart).2, hplace]
    rfl
  obtain ⟨hne, -, hlongPlace⟩ := Double.le_iff.mp hlong
  obtain ⟨-, hneNow, hpassed⟩ :=
    Double.le_iff.mp (Double.sub_le_sub hstart hfinite hnowFinite hdue)
  rw [isOver_eq, ← Bool.not_eq_true, Double.le_iff] at hover
  exact hover ⟨hne, hneNow, by omega⟩

section Loop

variable (steady : w.Steady) (hstart : start.isFinite = true)
  (hduration : plan.duration.isFinite = true) (hinterval : plan.interval.isFinite = true)
  (hquantum : tuning.pollQuantum.lt 0 = false)
  (hlong : plan.duration.le (start + plan.interval - start) = true)

include steady hstart hduration hinterval hquantum hlong

/-- After the one send nothing is sent any more. -/
theorem Laps.idle {fuel : Nat} {env last : σ} {stints : List (Stint Double)}
    {result : Except Stop (Progress Double)}
    (h : Laps w plan tuning (scheduleOf plan start) fuel p env stints result last)
    (hp : Dated (scheduleOf plan start) p (w.timer.now env)) (hindex : p.index = 1) :
    ∀ x ∈ stints, x.isSend = false := by
  have hdated := dated_invariant steady hstart hduration tuning hinterval hquantum
  have hnever : ∀ (q : Progress Double) env, q.index = 1 →
      Dated (scheduleOf plan start) q (w.timer.now env) →
      isOver plan (scheduleOf plan start) (w.timer.now env) = false →
      Seconds.le q.deadline (w.timer.now env) ≠ true := by
    intro q env hq hdated hover hdue
    have hsecond := hdated.deadline
    rw [hq] at hsecond
    have hnot := not_due hstart hduration hinterval hlong hsecond hdated.started hover
    exact Bool.false_ne_true (hnot.symm.trans hdue)
  have hinv : Invariant w plan tuning (scheduleOf plan start) (fun _ => True) fun q env =>
      Dated (scheduleOf plan start) q (w.timer.now env) ∧ q.index = 1 :=
    ⟨fun q env hq hover _ => ⟨hdated.pump q env hq.1 hover trivial, hq.2⟩,
      fun q _ _ env hq hover hdue _ _ _ => absurd hdue (hnever q env hq.2 hq.1 hover),
      fun q env hq hover hahead _ => ⟨hdated.nap q env hq.1 hover hahead trivial, hq.2⟩⟩
  exact h.forall_mem hinv (fun _ _ _ _ => rfl)
    (fun q env hq hover hdue => absurd hdue (hnever q env hq.2 hq.1 hover)) (fun _ _ _ _ _ => rfl)
    (fun _ _ => trivial) ⟨hp, hindex⟩

/-- If sends take no time, and the interval is as long as the duration, also after rounding, a loop
sends once, at the start, and it can be told which deadline is due. -/
theorem Laps.single (prompt : w.Prompt) {first : Double}
    (hfirst : (scheduleOf plan start).deadline 0 = .ok first) {fuel : Nat} (hfuel : fuel ≠ 0)
    {env last : σ} (hnow : w.timer.now env = start) {stints : List (Stint Double)}
    {result : Except Stop (Progress Double)}
    (h : Laps w plan tuning (scheduleOf plan start) fuel { deadline := first } env stints result
      last) :
    (∃ x, stints.filter Stint.isSend = [x] ∧ x.time.eq start = true) ∧
      ∀ x ∈ stints, ¬ x.Astray (scheduleOf plan start) := by
  obtain ⟨turns, rfl⟩ := Nat.exists_eq_succ_of_ne_zero hfuel
  have hstartNe := Double.ne_nan_of_isFinite hstart
  have hbegin : Dated (scheduleOf plan start) { deadline := first } (w.timer.now env) :=
    .begin hstart hnow hfirst
  obtain ⟨hfirstNe, hfirstPlace⟩ := place_deadline_zero hfirst hstart hinterval
  let p : Progress Double := { deadline := first }
  let env' := pumped w p env tuning
  -- the pump of the first turn takes no time
  have hpumped : w.timer.now env' ≠ .nan ∧ (w.timer.now env').place = start.place := by
    obtain ⟨t, ht, hle, hclock⟩ := pumped_eq (p := p) steady tuning (hnow ▸ hstart) hfirstNe
    rw [hnow, (Double.place_sub_of_place hstart hfirstNe hfirstPlace).2, max_self] at hle
    rw [hclock, hnow]
    exact ht.add_of_nonpos hle hstart
  have hon : GoesOn w plan tuning (scheduleOf plan start) p env :=
    ⟨not_over_of_place plan hstart (hnow ▸ hstartNe) (congrArg _ hnow), (steady.pump _ _).1,
      not_over_of_place plan hstart hpumped.1 hpumped.2⟩
  have hdue : Seconds.le p.deadline (w.timer.now env') = true :=
    Double.le_iff.mpr ⟨hfirstNe, hpumped.1, (hfirstPlace.trans hpumped.2.symm).le⟩
  -- the send takes no time either, so nothing but the first deadline is due after it
  have hover : (sendStint w p env' plan).finish = w.timer.now env' := prompt _ _ _ _
  have hlast : (scheduleOf plan start).lastDue (sendStint w p env' plan).finish = .ok 0 := by
    rw [hover]
    exact lastDue_of_place hstart hinterval hpumped.1 hpumped.2
  obtain ⟨second, hsecond⟩ := exists_deadline (scheduleOf plan start) Int.one_nonneg
    (twoPow_pos 970) (Int.add_le_add_right (Int.ofNat_le.mpr largestInteger_pos) _)
  have hafter : p.afterSend (sendStint w p env' plan).deal.outcome =
      .ok { p with sent := p.sent + 1 } := by
    rw [sendStint_ok steady]
    rfl
  have hadvanced := advanced_of_lastDue (q := { p with sent := p.sent + 1 }) hlast hsecond
  obtain ⟨rest, rfl, hrest⟩ := h.of_due hon hdue hafter hadvanced
  have hpumpedDated :=
    (dated_invariant steady hstart hduration tuning hinterval hquantum).pump p env
    hbegin hon.begins trivial
  have hidle := hrest.idle steady hstart hduration hinterval hquantum hlong
    (hpumpedDated.advanced (le_sent steady plan hpumpedDated.started) hafter hadvanced) rfl
  refine ⟨⟨sendStint w p env' plan, ?_, Double.eq_of_place hpumped.1 hstartNe hpumped.2⟩, ?_⟩
  · rw [List.filter_cons_of_neg (by nofun), List.filter_cons_of_pos rfl,
      List.filter_eq_nil_iff.mpr fun x hx => by rw [hidle x hx]; exact Bool.false_ne_true]
  · exact List.forall_mem_cons.mpr ⟨not_astray rfl, List.forall_mem_cons.mpr
      ⟨not_astray_of_told hlast, fun x hx => not_astray (hidle x hx)⟩⟩

end Loop

/-! ## §2 An infinite interval -/

section Infinite

variable (steady : w.Steady)

include steady

/-- Without a deadline that is a number a pump lasts for a whole slice. -/
theorem pumped_of_nan (tuning : Tuning Double) (hp : p.deadline = .nan) (env : σ) :
    w.timer.now (pumped w p env tuning) =
      w.timer.now env + Seconds.max Seconds.zero tuning.ioSlice := by
  have hmin : Seconds.min tuning.ioSlice (Seconds.sub p.deadline (w.timer.now env)) =
      tuning.ioSlice := by
    have hsub : Seconds.sub Double.nan (w.timer.now env) = .nan := by
      cases w.timer.now env <;> rfl
    rw [hp, hsub, Seconds.min, if_neg]
    exact fun hlt => Bool.false_ne_true ((Double.nan_lt _).symm.trans hlt)
  have hrequest : pumpRequest tuning p (w.timer.now env) =
      .pump (Seconds.max Seconds.zero tuning.ioSlice) := by
    rw [pumpRequest, hmin]
  rw [pumped, hrequest]
  exact (steady.pump _ env).2

/-- Without a deadline that is a number a sleep is for no number, and refused. -/
theorem napStint_of_nan (tuning : Tuning Double) (hp : p.deadline = .nan) (env : σ) :
    ∃ f, (napStint w p env tuning).deal.outcome = .error (.fault f) := by
  have hnap : nap p tuning (w.timer.now env) = .nan := by
    have hsub : Seconds.sub Double.nan (w.timer.now env) = .nan := by
      cases w.timer.now env <;> rfl
    rw [nap, hp, hsub, Seconds.min, if_neg]
    exact fun hlt => Bool.false_ne_true ((Double.lt_nan _).symm.trans hlt)
  obtain ⟨f, hf⟩ : ∃ f, sleepFault? Double.nan none = some f := ⟨_, rfl⟩
  refine ⟨f, ?_⟩
  change (w.timer.sleep (nap _ tuning _) env).1.mapError Stop.fault = _
  rw [hnap, steady.refuse .nan env f hf]
  rfl

/-- With an infinite interval nothing is ever sent: the first deadline is no number, and if the pump
of the first turn does not use up the duration, the sleep that follows is refused. -/
theorem Laps.of_infinite (hstart : start.isFinite = true) {fuel : Nat} {env last : σ}
    (hnow : w.timer.now env = start) {stints : List (Stint Double)}
    {result : Except Stop (Progress Double)}
    (h : Laps w plan tuning (scheduleOf plan start) fuel { deadline := .nan } env stints result
      last) :
    (∀ x ∈ stints, x.isSend = false) ∧
      ((∃ f, result = .error (.fault f)) ↔ fuel ≠ 0 ∧
        plan.duration.le (start + Seconds.max Seconds.zero tuning.ioSlice - start) = false) := by
  have hbegins : isOver plan (scheduleOf plan start) (w.timer.now env) = false :=
    not_over_of_place plan hstart (hnow ▸ Double.ne_nan_of_isFinite hstart) (congrArg _ hnow)
  have hnever : ∀ now, Seconds.le Double.nan now ≠ true := fun now hdue =>
    Bool.false_ne_true ((Double.nan_le now).symm.trans hdue)
  have hpumped := pumped_of_nan steady tuning (p := { deadline := .nan }) rfl env
  have hrefused := napStint_of_nan steady tuning (p := { deadline := .nan }) rfl
    (pumped w { deadline := .nan } env tuning)
  rw [hnow] at hpumped
  rw [← hpumped, ← isOver_eq]
  cases h with
  | spent => exact ⟨List.forall_mem_nil _, fun ⟨_, hf⟩ => (by cases hf), fun h => absurd rfl h.1⟩
  | finished hover => exact nomatch hbegins.symm.trans hover
  | cut _ hcut => exact nomatch (steady.pump _ _).1.symm.trans hcut
  | late _ _ hlate =>
    exact ⟨List.forall_mem_singleton.mpr rfl, fun ⟨_, hf⟩ => (by cases hf),
      fun h => nomatch h.2.symm.trans hlate⟩
  | unsent _ hdue _ => exact absurd hdue (hnever _)
  | astray _ hdue _ _ => exact absurd hdue (hnever _)
  | sent _ hdue _ _ _ => exact absurd hdue (hnever _)
  | woken hon _ hwoken =>
    obtain ⟨f, hf⟩ := hrefused
    obtain rfl := Except.error.inj (hf.symm.trans hwoken)
    exact ⟨List.forall_mem_cons.mpr ⟨rfl, List.forall_mem_singleton.mpr rfl⟩,
      fun _ => ⟨Nat.succ_ne_zero _, hon.remains⟩, fun _ => ⟨f, rfl⟩⟩
  | slept _ _ hok _ =>
    obtain ⟨f, hf⟩ := hrefused
    exact nomatch hf.symm.trans hok

end Infinite

end BrokerLoad.Publisher
