import BrokerLoad.Proofs.Fleet.Rules

/-!
# The parts of a run

What each part of a run does to the record that it works on. A publisher or a subscriber that is
waited for ends up settled, whatever its process does; one that is killed in the end does too. Each
part keeps to the deeds of its phase.

## Main definitions

* `Clamped`: the limits that a run waits with.
* `Deed.Joins`, `Deed.Asks`, `Deed.Waits`: the deeds of the phases that end a run.
* `Fleet.Owned`: a record whose process is one of a phase.

## Main statements

* `Fleet.joinOne_goes`, `Fleet.terminate_goes`, `Fleet.stopOne_goes`, `Fleet.killOne_goes`.
-/

namespace BrokerLoad

variable {τ σ π : Type} [Seconds τ]

/-! ## §1 The deeds of the phases -/

/-- The limit of a wait, if it has one, is what is left of some time, and never less than none. -/
def Clamped (limit : Option τ) : Prop :=
  ∀ time ∈ limit, ∃ left, time = Seconds.max Seconds.zero left

theorem clamped_none : Clamped (none : Option τ) := nofun

theorem clamped_max (left : τ) : Clamped (some (Seconds.max Seconds.zero left)) := by
  intro time htime
  cases htime
  exact ⟨left, rfl⟩

omit [Seconds τ] in
/-- Exact times that a run waits for are not negative. -/
theorem Clamped.nonneg {time : Rat} (h : Clamped (some time)) : 0 ≤ time := by
  obtain ⟨left, rfl⟩ := h time rfl
  show (0 : Rat) ≤ if decide (0 < left) = true then left else 0
  split
  · next hleft => exact Rat.le_of_lt (of_decide_eq_true hleft)
  · exact Rat.le_refl

/-- The deeds of waiting for publishers, whose processes are the `own` ones. -/
def Deed.Joins (own : π → Prop) : Deed τ π → Prop
  | .collect p limit => own p ∧ Clamped limit
  | .poll p | .kill p => own p
  | .read _ output => Legible τ output
  | .log _ | .readClock | .settle .. => True
  | _ => False

omit [Seconds τ] in
/-- The deeds of asking subscribers to stop. -/
def Deed.Asks (own : π → Prop) : Deed τ π → Prop
  | .poll p | .terminate p => own p
  | _ => False

/-- The deeds of waiting for subscribers, and of killing what is left over. -/
def Deed.Waits (own : π → Prop) : Deed τ π → Prop
  | .await p limit => own p ∧ Clamped limit
  | .kill p => own p
  | .log _ | .readClock | .settle .. => True
  | _ => False

namespace Fleet

variable {y : Yard τ σ π} {F : Fates σ π} {ok : Deed τ π → Prop} {own : π → Prop} {i : Nat} {p : π}

/-- A record that is there and, if it is open, has none but one of the `own` processes. -/
def Owned (own : π → Prop) (i : Nat) (w : World τ σ π) : Prop :=
  ∃ r, w.record? i = some r ∧ (r.settled = false → ∀ p, r.process = some p → own p)

omit [Seconds τ] in
theorem Owned.busy {w : World τ σ π} {r : Record τ π} (h : Owned own i w)
    (hr : w.record? i = some r) (hopen : r.settled = false) (hprocess : r.process = some p) :
    own p ∧ Busy i p w := by
  obtain ⟨s, hs, hown⟩ := h
  obtain rfl : r = s := Option.some.inj (hr.symm.trans hs)
  exact ⟨hown hopen p hprocess, r, hr, hopen, hprocess⟩

theorem lasting_owned (hno : ∀ argv capture, ¬ ok (.launch argv capture)) (i : Nat) :
    Lasting y F ok (Owned own i) := by
  intro u v hpath h
  obtain ⟨r, hr, hown⟩ := h
  obtain ⟨s, hs, hkeeps, hprocess⟩ := hpath.keeps hr
  exact ⟨s, hs, fun hopen p hp => hown (hkeeps.unsettled hopen) p (hprocess hno ▸ hp)⟩

/-! ## §2 Publishers -/

/-- Collecting without a limit, which is done when the process is bound to end. -/
theorem collectAll_goes (hF : y.host.Respects F) (hown : own p) (i : Nat) :
    Goes y F (Deed.Joins own) (Doomed F i p)
      (act (.collect p none) (y.host.collect p))
      fun _ => Spent F i p := by
  refine (Goes.answer (K := fun _ s => F.exited s p) (fun _ => rfl) ⟨hown, clamped_none⟩
    (fun w hw => hw.2) (fun _ => rfl) (steady_doomed hF i p) ?_).post ?_
  · exact fun _ _ _ => hF.collect
  · exact fun _ w hw => ⟨hw.1.1, hw.2⟩

/-- Polling tells whether the process is bound to end. -/
theorem poll_goes (hF : y.host.Respects F) {P : World τ σ π → Prop} (hok : ok (.poll p))
    (hP : Steady y P) :
    Goes y F ok P (act (.poll p) (y.host.poll p)) fun found w =>
      P w ∧ ∀ code, found = some code → F.ending w.state.env p := by
  refine Goes.answer (K := fun found s => ∀ code, found = some code → F.ending s p)
    (fun _ => rfl) hok (fun _ _ => trivial) (fun _ => rfl) hP ?_
  intro s t _ hanswer code heq
  subst heq
  exact hF.poll hanswer

/-- What is collected comes from a process that has exited. -/
theorem collect_goes (hF : y.host.Respects F) (hown : own p) (deadline : τ) (i : Nat) :
    Goes y F (Deed.Joins own) (Busy i p) (collect y p deadline) fun found w =>
      Busy i p w ∧ ∀ a, found = some a → F.exited w.state.env p := by
  have hbusy : Steady y (Busy i p) := steady_busy i p
  -- once a poll has told that the process ended, the whole output is collected
  have hwhole : ∀ code : Int, Goes y F (Deed.Joins own)
      (fun w => Busy i p w ∧ ∀ c, some code = some c → F.ending w.state.env p)
      (do return some (← act (.collect p none) (y.host.collect p)))
      fun found w => Busy i p w ∧ ∀ a, found = some a → F.exited w.state.env p := by
    intro code
    refine Goes.bind ((collectAll_goes hF hown i).pre ?_) fun a => ?_
    · exact fun w hw => ⟨hw.1, hw.2 code rfl⟩
    · exact Goes.pure fun w hw => ⟨hw.1, fun _ _ => hw.2⟩
  unfold collect
  refine Goes.bind (poll_goes hF hown hbusy) fun found => ?_
  cases found with
  | some code => exact hwhole code
  -- it still runs: its output is waited for until the deadline
  | none =>
    refine Goes.bind ((Goes.now trivial hbusy).pre fun _ hw => hw.1) fun time => ?_
    refine Goes.bind (Goes.answer (K := fun found s => ∀ a, found = some a → F.exited s p)
      (fun _ => rfl) ⟨hown, clamped_max _⟩ (fun _ _ => trivial) (fun _ => rfl) hbusy ?_)
      fun found => ?_
    · intro s t _ hanswer a heq
      subst heq
      exact hF.collectWithin hanswer
    · cases found with
      | some collected => exact Goes.pure fun w hw => ⟨hw.1, fun a _ => hw.2 collected rfl⟩
      | none =>
        -- no output came in time: the process is polled once more before it is given up
        refine Goes.bind ((poll_goes hF hown hbusy).pre fun _ hw => hw.1) fun found => ?_
        cases found with
        | some code => exact hwhole code
        | none => exact Goes.pure fun w hw => ⟨hw.1, fun a ha => nomatch ha⟩

theorem kill_goes (hF : y.host.Respects F) (hok : ok (.kill p)) (i : Nat) :
    Goes y F ok (Busy i p) (act (.kill p) (y.host.kill p))
      fun _ => Doomed F i p :=
  Goes.answer (K := fun _ s => F.ending s p) (fun _ => rfl) hok (fun _ _ => trivial)
    (fun _ => rfl) (steady_busy i p) fun _ _ _ => hF.kill

theorem awaitEnd_goes (hF : y.host.Respects F) (hown : own p) (i : Nat) :
    Goes y F (Deed.Waits own) (Doomed F i p)
      (act (.await p none) (y.host.await p))
      fun _ => Spent F i p := by
  refine (Goes.answer (K := fun _ s => F.exited s p) (fun _ => rfl) ⟨hown, clamped_none⟩
    (fun w hw => hw.2) (fun _ => rfl) (steady_doomed hF i p) ?_).post ?_
  · exact fun _ _ _ => hF.await
  · exact fun _ w hw => ⟨hw.1.1, hw.2⟩

theorem settleExited_goes {status : Status} {returncode : Option Int} {error : Option String}
    (hok : ok (.settle i status returncode error)) (hstatus : status ≠ .pending) :
    Goes y F ok (Spent F i p)
      (settle i status returncode error) fun _ => Done i := by
  apply Goes.settle hok hstatus
  intro w hw
  obtain ⟨⟨r, hr, hopen, hprocess⟩, hexited⟩ := hw
  refine ⟨r, hr, hopen, fun q hq => ?_⟩
  -- the only process of the record is the one that was waited for
  obtain rfl : p = q := Option.some.inj (hprocess.symm.trans hq)
  exact hexited

theorem readOutput_goes (hF : y.host.Respects F) (record : Record τ π) (output : Option String)
    (i : Nat) (p : π) :
    Goes y F (Deed.Joins own) (Spent F i p)
      (readOutput i record output) fun _ => Spent F i p := by
  have hsteady : Steady y (Spent F i p) := steady_spent hF i p
  -- what is taken over from an output touches neither the outcome nor the process
  have hreport : ∀ f : Record τ π → Record τ π,
      (∀ r, ∃ sent elapsed, f r = { r with sent, elapsed }) →
      Goes y F (Deed.Joins own) (Spent F i p)
        (changeRecord i f) fun _ => Spent F i p := by
    intro f hf
    refine (Goes.report hf ?_).post ?_
    · intro w hw
      obtain ⟨⟨r, hr, hopen, _⟩, _⟩ := hw
      exact ⟨r, hr, hopen⟩
    · intro _ w hw
      obtain ⟨v, ⟨⟨r, hr, hopen, hprocess⟩, hexited⟩, rfl⟩ := hw
      obtain ⟨sent, elapsed, hfr⟩ := hf r
      refine ⟨⟨f r, ?_, ?_, ?_⟩, hexited⟩
      · rw [World.record?_changed_self, hr]
        rfl
      · rw [hfr]
        exact hopen
      · rw [hfr]
        exact hprocess
  -- only a count that is no numeral makes an output illegible
  have hread : (∀ f, (findReport (output.getD "") : Finding τ) ≠ .count (.error f)) →
      Goes y F (Deed.Joins own) (Spent F i p)
        (Traced.note (.read i output)) fun _ => Spent F i p :=
    fun hlegible => Goes.read hlegible hsteady
  unfold readOutput
  cases hfind : (findReport (output.getD "") : Finding τ) with
  -- an output that tells nothing leaves the record without a report
  | nothing => exact Goes.bind (hread (by simp [hfind])) fun _ => Goes.pure fun _ => id
  | report r =>
    exact Goes.bind (hread (by simp [hfind])) fun _ => hreport _ fun _ => ⟨_, _, rfl⟩
  | unreadable line =>
    exact Goes.bind (hread (by simp [hfind])) fun _ => Goes.log trivial hsteady
  | count sent =>
    cases sent with
    | ok n =>
      refine Goes.bind (hread (by simp [hfind])) fun _ => ?_
      refine Goes.bind (R := fun _ => Spent F i p) ?_ fun _ => ?_
      · exact Goes.pure fun _ => id
      · exact hreport _ fun r => ⟨_, r.elapsed, rfl⟩
    -- the output was read, but its count raises
    | error f =>
      intro _ _ w heq
      subst heq
      exact ⟨w, .refl, .illegible hfind⟩

/-- A publisher that is waited for ends up settled. -/
theorem joinOne_goes (hF : y.host.Respects F) (limit deadline : τ) (i : Nat) :
    Goes y F (Deed.Joins own) (Owned own i) (joinOne y limit deadline i) fun _ => Done i := by
  unfold joinOne
  apply Goes.bind Goes.recordAt?
  intro found
  cases found with
  | none =>
    apply Goes.pure
    intro w h
    obtain ⟨⟨r, hr, _⟩, hnone⟩ := h
    rw [hnone] at hr
    cases hr
  | some r =>
    apply Goes.ite
    -- a publisher that could not be started was settled at once
    · exact fun hsettled => Goes.pure fun w hw => ⟨r, hw.2, hsettled⟩
    · intro hsettled
      have hopen : r.settled = false := by simpa using hsettled
      cases hprocess : r.process with
      -- a record that is open has a process, unless its start was cut
      | none => exact Goes.fails fun w hw => .noProcess hw.2 hopen hprocess
      | some p =>
        refine Goes.assuming (fun w hw => (hw.1.busy hw.2 hopen hprocess).1) fun hown => ?_
        refine Goes.bind ((collect_goes hF hown deadline i).pre ?_) fun collected => ?_
        · exact fun w hw => (hw.1.busy hw.2 hopen hprocess).2
        cases collected with
        | none =>
          -- the time is over: kill, collect what is left, and settle
          refine Goes.bind ((kill_goes hF hown i).pre fun _ hw => hw.1) fun _ => ?_
          refine Goes.bind (collectAll_goes hF hown i) ?_
          intro h
          obtain ⟨output, code⟩ := h
          apply Goes.bind (Goes.log trivial (steady_spent hF i p))
          exact fun _ => settleExited_goes trivial (by simp)
        -- the publisher ended in time: what it wrote is read before its exit code is looked at
        | some a =>
          obtain ⟨output, code⟩ := a
          refine Goes.bind ((readOutput_goes hF r output i p).pre ?_) fun _ => Goes.ite ?_ ?_
          · exact fun w hw => ⟨hw.1, hw.2 _ rfl⟩
          · intro _
            refine Goes.bind (settleExited_goes trivial (by simp)) fun _ => ?_
            refine Goes.bind Goes.recordAt? fun _ => ?_
            exact (Goes.log trivial (steady_done i)).pre fun _ hw => hw.1
          · intro _
            apply Goes.bind (Goes.log trivial (steady_spent hF i p))
            exact fun _ => settleExited_goes trivial (by simp)

/-! ## §3 Subscribers -/

/-- A request to stop that reaches nobody is no fault. -/
theorem request_goes {P : World τ σ π → Prop} (hown : own p) (hP : Steady y P) :
    Goes y F (Deed.Asks own) P
      (Action.recover
        (do
          act (.terminate p) (y.host.terminate p)
          return true)
        fun f => if f.saysGone then some (pure false) else none)
      fun _ => P := by
  intro _ hw w heq
  subst heq
  have hstep : Step y.host F (Deed.Asks own) w
      (w.after (.terminate p) (bare (y.host.terminate p w.state.env)).2) := .act hown trivial
  have hafter : P (w.after (.terminate p) (bare (y.host.terminate p w.state.env)).2) :=
    hP w (.terminate p) hw
  have hperform : y.host.perform (.terminate p) w.state.env =
      bare (y.host.terminate p w.state.env) := rfl
  simp only [Action.recover, Action.runFrom_ofFunction, Action.runFrom_bind, act_run]
  cases hanswer : y.host.terminate p w.state.env with
  | mk answer env =>
    rw [hanswer] at hstep hafter hperform
    cases answer with
    | ok _ => exact ⟨.single hstep, hafter⟩
    | error f =>
      -- the request may come too late, but any other fault ends the run
      cases hgone : f.saysGone with
      | true =>
        simp only [hgone, if_true]
        exact ⟨.single hstep, hafter⟩
      | false =>
        simp only [hgone]
        exact ⟨w, .refl, .raised hown trivial hperform hgone⟩

/-- Asking a subscriber to stop changes no record. A process that is gone is no fault. -/
theorem terminate_goes (hF : y.host.Respects F) (i : Nat) :
    Goes y F (Deed.Asks own) (Owned own i) (terminate y i) fun _ => Owned own i := by
  have hsteady : Steady y (Owned own i) := fun _ _ => id
  unfold terminate
  apply Goes.bind Goes.recordAt?
  intro found
  cases found with
  | none => exact Goes.pure fun _ hw => hw.1
  | some r =>
    -- only a process that is not known to have ended is asked
    cases hopen : r.settled with
    | true =>
      simp only [hopen]
      exact Goes.pure fun _ hw => hw.1
    | false =>
      cases hprocess : r.process with
      | none =>
        simp only [hopen, hprocess]
        exact Goes.pure fun _ hw => hw.1
      | some p =>
        simp only [hopen, hprocess]
        refine Goes.assuming (fun w hw => (hw.1.busy hw.2 hopen hprocess).1) fun hown => ?_
        refine Goes.bind ((poll_goes hF hown hsteady).pre fun _ hw => hw.1) fun found => ?_
        cases found with
        | some code => exact Goes.pure fun _ hw => hw.1
        | none => exact (request_goes hown hsteady).pre fun _ hw => hw.1

/-- A subscriber that is waited for ends up settled. -/
theorem stopOne_goes (hF : y.host.Respects F) (deadline : τ) (i : Nat) :
    Goes y F (Deed.Waits own) (Owned own i) (stopOne y deadline i) fun _ => Done i := by
  unfold stopOne
  apply Goes.bind Goes.recordAt?
  intro found
  cases found with
  | none =>
    apply Goes.pure
    intro w h
    obtain ⟨⟨r, hr, _⟩, hnone⟩ := h
    rw [hnone] at hr
    cases hr
  | some r =>
    apply Goes.ite
    -- a subscriber that could not be started was settled at once
    · exact fun hsettled => Goes.pure fun w hw => ⟨r, hw.2, hsettled⟩
    · intro hsettled
      have hopen : r.settled = false := by simpa using hsettled
      cases hprocess : r.process with
      | none => exact Goes.fails fun w hw => .noProcess hw.2 hopen hprocess
      | some p =>
        refine Goes.assuming (fun w hw => (hw.1.busy hw.2 hopen hprocess).1) fun hown => ?_
        have hbusy : Steady y (Busy i p) := steady_busy i p
        have hspent : Steady y (Spent F i p) := steady_spent hF i p
        refine Goes.bind ((Goes.now trivial hbusy).pre ?_) fun time => ?_
        · exact fun w hw => (hw.1.busy hw.2 hopen hprocess).2
        refine Goes.bind (Goes.answer (K := fun found s => ∀ code, found = some code → F.exited s p)
          (fun _ => rfl) ⟨hown, clamped_max _⟩ (fun _ _ => trivial) (fun _ => rfl) hbusy ?_)
          fun found => ?_
        · intro s t _ hanswer code heq
          subst heq
          exact hF.awaitWithin hanswer
        · cases found with
          | none =>
            -- the time is over: kill, wait for the end, and settle
            refine Goes.bind ((kill_goes hF hown i).pre fun _ hw => hw.1) fun _ => ?_
            refine Goes.bind (awaitEnd_goes hF hown i) fun code => ?_
            refine Goes.bind (Goes.log trivial hspent) fun _ => ?_
            exact settleExited_goes trivial (by simp)
          -- the exit code tells whether it was stopped as it should be
          | some code =>
            refine Goes.pre (P := (Spent F i p)) ?_
              fun w hw => ⟨hw.1, hw.2 code rfl⟩
            refine Goes.ite ?_ ?_
            · exact fun _ => settleExited_goes trivial (by simp)
            · intro _
              refine Goes.bind (Goes.log trivial hspent) fun _ => ?_
              exact settleExited_goes trivial (by simp)

/-! ## §4 What is left over -/

/-- The record at a position is open and has no process, or it is settled, or it is not there. -/
def Idle (i : Nat) (w : World τ σ π) : Prop := ∀ p, ¬ Busy i p w

omit [Seconds τ] in
theorem idle_of_none {w : World τ σ π} (hnone : w.record? i = none) : Idle i w := by
  intro p hbusy
  obtain ⟨s, hs, _⟩ := hbusy
  cases hnone.symm.trans hs

omit [Seconds τ] in
theorem idle_of_some {w : World τ σ π} {r : Record τ π} (hr : w.record? i = some r)
    (h : r.settled = true ∨ r.process = none) : Idle i w := by
  intro p hbusy
  obtain ⟨s, hs, hopen, hprocess⟩ := hbusy
  obtain rfl : r = s := Option.some.inj (hr.symm.trans hs)
  rcases h with hsettled | hnone
  · cases hopen.symm.trans hsettled
  · cases hprocess.symm.trans hnone

theorem lasting_idle (hno : ∀ argv capture, ¬ ok (.launch argv capture))
    (hnew : ∀ role index, ¬ ok (.enlist role index)) (i : Nat) : Lasting y F ok (Idle i) := by
  intro u v hpath hidle p h
  -- if it were busy later it would have been busy before: nothing was launched in between
  obtain ⟨s, hs, hopen, hp⟩ := h
  obtain ⟨r, hr, hrs⟩ := hpath.back hnew hs
  obtain ⟨s', hs', _, hprocess⟩ := hpath.keeps hr
  obtain rfl : s = s' := Option.some.inj (hs.symm.trans hs')
  exact hidle p ⟨r, hr, hrs.unsettled hopen, (hprocess hno).symm.trans hp⟩

/-- A record that is open and has a process is killed, waited for and settled. -/
theorem killOne_goes (hF : y.host.Respects F) (i : Nat) :
    Goes y F (Deed.Waits own) (Owned own i) (killOne y i) fun _ => Idle i := by
  have hdone : ∀ w : World τ σ π, Done i w → Idle i w := by
    intro w h
    obtain ⟨r, hr, hsettled⟩ := h
    exact idle_of_some hr (.inl hsettled)
  unfold killOne
  apply Goes.bind Goes.recordAt?
  intro found
  cases found with
  | none => exact Goes.pure fun w hw => idle_of_none hw.2
  | some r =>
    cases hopen : r.settled with
    | true =>
      simp only [hopen]
      exact Goes.pure fun w hw => idle_of_some hw.2 (.inl hopen)
    | false =>
      cases hprocess : r.process with
      | none =>
        simp only [hopen, hprocess]
        exact Goes.pure fun w hw => idle_of_some hw.2 (.inr hprocess)
      | some p =>
        simp only [hopen, hprocess]
        refine Goes.assuming (fun w hw => (hw.1.busy hw.2 hopen hprocess).1) fun hown => ?_
        refine Goes.bind ((Goes.log trivial (steady_busy i p)).pre ?_) fun _ => ?_
        · exact fun w hw => (hw.1.busy hw.2 hopen hprocess).2
        -- a process that was killed is bound to end, so the wait without a limit is allowed
        · refine Goes.bind (kill_goes hF hown i) fun _ => ?_
          refine Goes.bind (awaitEnd_goes hF hown i) fun code => ?_
          exact (settleExited_goes trivial (by simp)).post fun _ => hdone

end Fleet

end BrokerLoad
