import BrokerLoad.Proofs.Fleet.Bench
import BrokerLoad.Proofs.Fleet.InTurn
import Mathlib.Algebra.Order.Ring.Rat
import Mathlib.Tactic.Linarith

/-!
# The publishers are judged one by one

The publishers are waited for one after the other, but they share one deadline. When a publisher hangs
it takes all the time that was left, and the ones behind it have none. They are polled all the same,
so one that has exited by then is taken by its own exit, and one that has not would not have made it
in its own turn either. What a record says of a publisher depends on that publisher alone.

## Main definitions

* `Life`: what a process does by itself.
* `Host.Lives`: a machine on which the processes lead their lives.
* `Life.outcome`: what a life is recorded as.
* `Fleet.Assembled`: a world in which every open publisher has its own process.

## Main statements

* `Fleet.collect_lives`: collecting a publisher gives what it wrote, if it exits in time.
* `Fleet.joinPublishers_judges`: every publisher is recorded by its own life.
* `Fleet.publishers_judged_alone`: so another life of one changes nothing for the others.
-/

namespace BrokerLoad

variable {σ π : Type}

/-! ## §1 Lives -/

/-- What a process does by itself: when it exits, if ever, with which code, and what it has written
until then. A process that is killed before has another exit code, and may have written less. -/
structure Life where
  exitAt : Option Rat
  code : Int
  output : Option String
  cut : Option String × ExitCode

namespace Life

/-- The process has exited by some time. -/
def OverBy (l : Life) (time : Rat) : Prop := ∃ e, l.exitAt = some e ∧ e ≤ time

instance (l : Life) (time : Rat) : Decidable (l.OverBy time) :=
  match h : l.exitAt with
  | none => isFalse fun hover => by
    obtain ⟨e, he, _⟩ := hover
    cases h.symm.trans he
  | some e =>
    if hle : e ≤ time then isTrue ⟨e, h, hle⟩
    else isFalse fun hover => by
      obtain ⟨e', he', hle'⟩ := hover
      obtain rfl : e = e' := Option.some.inj (h.symm.trans he')
      exact hle hle'

theorem OverBy.mono {l : Life} {time later : Rat} (h : l.OverBy time) (hle : time ≤ later) :
    l.OverBy later := by
  obtain ⟨e, he, hover⟩ := h
  exact ⟨e, he, hover.trans hle⟩

/-- How the process exits when it may run until some time. -/
def exit (l : Life) (p : π) (horizon : Rat) : Exit π :=
  if l.OverBy horizon then ⟨p, false, l.output, some l.code⟩ else ⟨p, true, l.cut.1, l.cut.2⟩

/-- What collecting a publisher gives when it may run until some time. -/
def collected (l : Life) (horizon : Rat) : Option (Option String × ExitCode) :=
  if l.OverBy horizon then some (l.output, some l.code) else none

/-- What the process is recorded as when it may run until some time: its status and exit code, and the
number of messages and the time that it reports. -/
def outcome (l : Life) (horizon : Rat) (r : Record Rat π) :
    Status × ExitCode × Option Int × Option Rat :=
  if l.OverBy horizon then
    let told := (findReport (l.output.getD "") : Finding Rat).takenOver r
    (if l.code = 0 then .success else .failure, some l.code, told.sent, told.elapsed)
  else (.failure, l.cut.2, r.sent, r.elapsed)

end Life

/-- What a record says of how its process did. -/
def Record.told {τ : Type} (r : Record τ π) : Status × ExitCode × Option Int × Option τ :=
  (r.status, r.returncode, r.sent, r.elapsed)

/-- What is recorded of an exit is what is recorded of the life. -/
theorem Life.told_closed (l : Life) (p : π) (horizon : Rat) (r : Record Rat π)
    (error : Option String) :
    ((l.exit p horizon).closed .publisher r error).told = l.outcome horizon r := by
  unfold Record.told Exit.closed Life.exit Life.outcome
  split
  · simp [Exit.succeeds, Exit.finding]
  · simp [Exit.succeeds, Exit.finding, Finding.takenOver]

/-- No time has passed, and no process was killed. -/
def Still (clock : σ → Rat) (alive : σ → π → Prop) (s t : σ) : Prop :=
  clock t = clock s ∧ ∀ q, alive s q → alive t q

/-- A machine on which the processes lead their lives until they are killed; `alive` tells which were
not. A wait with a limit takes until the process exits, or all of the limit. Everything else takes no
time. -/
structure Host.Lives (h : Host Rat σ π) (clock : σ → Rat) (alive : σ → π → Prop)
    (life : π → Life) : Prop where
  now : ∀ s, ∃ t, h.now s = (.ok (clock s), t) ∧ Still clock alive s t
  poll : ∀ p s, alive s p → ∃ t,
    h.poll p s = (.ok (if (life p).OverBy (clock s) then some (life p).code else none), t) ∧
      Still clock alive s t
  collect : ∀ p s, alive s p → (life p).OverBy (clock s) → ∃ t,
    h.collect p s = (.ok ((life p).output, some (life p).code), t) ∧ Still clock alive s t
  inTime : ∀ p limit s e, alive s p → 0 ≤ limit → (life p).exitAt = some e →
    e ≤ clock s + limit → ∃ t,
      h.collectWithin p limit s = (.ok (some ((life p).output, some (life p).code)), t) ∧
        clock t = max (clock s) e ∧ ∀ q, alive s q → alive t q
  expired : ∀ p limit s, alive s p → 0 ≤ limit → ¬ (life p).OverBy (clock s + limit) → ∃ t,
    h.collectWithin p limit s = (.ok none, t) ∧ clock t = clock s + limit ∧
      ∀ q, alive s q → alive t q
  kill : ∀ p s, alive s p → ¬ (life p).OverBy (clock s) → ∃ t v, h.kill p s = (.ok (), t) ∧
    h.collect p t = (.ok (life p).cut, v) ∧ clock v = clock s ∧
      ∀ q, q ≠ p → alive s q → alive v q

namespace Fleet

variable {y : Yard Rat σ π} {clock : σ → Rat} {alive : σ → π → Prop} {life : π → Life}
  {u v w : World Rat σ π} {p : π} {i : Nat} {r : Record Rat π} {deadline start : Rat}

/-! ## §2 Collecting one publisher -/

/-- Whoever waits for what is left waits until the deadline, or not at all if the joint start was
later. -/
theorem add_remaining {time : Rat} (hstart : start ≤ time) (htime : time ≤ max start deadline) :
    time + remaining deadline time = max start deadline := by
  show time + (if decide (0 < deadline - time) = true then deadline - time else 0) = _
  split
  · rename_i hleft
    have hlt : 0 < deadline - time := of_decide_eq_true hleft
    rw [max_eq_right (by linarith)]
    linarith
  · rename_i hleft
    have hle : deadline ≤ time := by
      have hnot : ¬ 0 < deadline - time := fun h => hleft (decide_eq_true h)
      linarith
    -- nothing is left, so it is as late as it may be
    rcases le_total start deadline with hlate | hearly
    · rw [max_eq_right hlate] at htime ⊢
      linarith
    · rw [max_eq_left hearly] at htime ⊢
      linarith

/-- Collecting a publisher gives what it wrote if it exits in time, wherever in the row it stands. -/
theorem collect_lives (deadline : Rat) (hlives : y.host.Lives clock alive life)
    (halive : alive w.state.env p) (hstart : start ≤ clock w.state.env)
    (hend : clock w.state.env ≤ max start deadline) :
    ∃ v, Collected y p deadline w ((life p).collected (max start deadline)) v ∧
      clock w.state.env ≤ clock v.state.env ∧ clock v.state.env ≤ max start deadline ∧
      ∀ q, alive w.state.env q → alive v.state.env q := by
  obtain ⟨s, hpoll, hclock, hkept⟩ := hlives.poll p _ halive
  unfold Life.collected
  by_cases hover : (life p).OverBy (clock w.state.env)
  -- it has exited before its turn
  · rw [if_pos hover] at hpoll
    obtain ⟨t, hcollect, hclock', hkept'⟩ :=
      hlives.collect p s (hkept p halive) (hclock.symm ▸ hover)
    rw [if_pos (hover.mono hend)]
    refine ⟨_, .ended hpoll hcollect, ge_of_eq (hclock'.trans hclock), ?_, ?_⟩
    · exact (hclock'.trans hclock).trans_le hend
    · exact fun q hq => hkept' q (hkept q hq)
  -- it is waited for until the horizon
  · rw [if_neg hover] at hpoll
    obtain ⟨s', hnow, hclock', hkept'⟩ := hlives.now s
    have htime : clock s' = clock w.state.env := hclock'.trans hclock
    have halive' : alive s' p := hkept' p (hkept p halive)
    have hlimit : clock s' + remaining deadline (clock s) = max start deadline := by
      rw [htime, hclock]
      exact add_remaining hstart hend
    have hnonneg : 0 ≤ remaining deadline (clock s) := remaining_nonneg _ _
    by_cases hin : (life p).OverBy (max start deadline)
    · rw [if_pos hin]
      obtain ⟨e, he, hle⟩ := hin
      obtain ⟨t, hcollect, hwaited, hkept''⟩ :=
        hlives.inTime p _ s' e halive' hnonneg he (hlimit.symm ▸ hle)
      refine ⟨_, .inTime hpoll hnow hcollect, ?_, hwaited.trans_le ?_, ?_⟩
      · exact htime.symm.trans_le ((le_max_left _ e).trans_eq hwaited.symm)
      · exact max_le (htime.trans_le hend) hle
      · exact fun q hq => hkept'' q (hkept' q (hkept q hq))
    -- it is still running then, which the second poll finds too
    · rw [if_neg hin]
      obtain ⟨t, hcollect, hwaited, hkept''⟩ :=
        hlives.expired p _ s' halive' hnonneg (hlimit.symm ▸ hin)
      obtain ⟨t', hpoll', hpolled, hkept₃⟩ := hlives.poll p t (hkept'' p halive')
      have hlate : clock t = max start deadline := hwaited.trans hlimit
      rw [hlate, if_neg hin] at hpoll'
      refine ⟨_, .running hpoll hnow hcollect hpoll', ?_, (hpolled.trans hlate).le, ?_⟩
      · exact hend.trans (ge_of_eq (hpolled.trans hlate))
      · exact fun q hq => hkept₃ q (hkept'' q (hkept' q (hkept q hq)))

/-! ## §3 One round -/

theorem Collected.no_kill {found : Option (Option String × ExitCode)}
    (hv : Collected y p deadline w found v) :
    ∃ deeds, v.history = w.history ++ deeds ∧ ∀ q, .kill q ∉ deeds := by
  cases hv with
  | ended _ _ => exact ⟨[.poll p, .collect p none], by simp [World.history_after], by simp⟩
  | @inTime clock _ _ _ _ _ _ _ =>
    exact ⟨[.poll p, .readClock, .collect p (some (remaining deadline clock))],
      by simp [World.history_after], by simp⟩
  | @atLast clock _ _ _ _ _ _ _ _ _ _ _ _ =>
    exact ⟨[.poll p, .readClock, .collect p (some (remaining deadline clock)), .poll p,
      .collect p none], by simp [World.history_after], by simp⟩
  | @running clock _ _ _ _ _ _ _ _ =>
    exact ⟨[.poll p, .readClock, .collect p (some (remaining deadline clock)), .poll p],
      by simp [World.history_after], by simp⟩

/-- A publisher parts by its own exit if it exits in time, and is killed otherwise. -/
theorem Parted.lives {e : Exit π} (hv : Parted y p deadline w e v)
    (hlives : y.host.Lives clock alive life) (halive : alive w.state.env p)
    (hstart : start ≤ clock w.state.env) (hend : clock w.state.env ≤ max start deadline) :
    e = (life p).exit p (max start deadline) ∧
    (start ≤ clock v.state.env ∧ clock v.state.env ≤ max start deadline) ∧
    (∀ q, q ≠ p → alive w.state.env q → alive v.state.env q) ∧
    ∃ deeds, v.history = w.history ++ deeds ∧
      ∀ q, .kill q ∈ deeds ↔ q = p ∧ ¬ (life p).OverBy (max start deadline) := by
  obtain ⟨v', hlived, hpassed, hended, hkept⟩ :=
    collect_lives deadline hlives halive hstart hend
  -- what was collected is what its life lets collect
  have hsame : ∀ {found v}, Collected y p deadline w found v →
      found = (life p).collected (max start deadline) ∧ v = v' := by
    intro found v hcollected
    have hrun := hcollected.run.symm.trans hlived.run
    exact ⟨Except.ok.inj (congrArg Prod.fst hrun), congrArg Prod.snd hrun⟩
  obtain ⟨deeds, hdeeds, hnone⟩ := hlived.no_kill
  cases hv with
  | exited hcollected =>
    obtain ⟨hfound, rfl⟩ := hsame hcollected
    by_cases hover : (life p).OverBy (max start deadline)
    · rw [Life.collected, if_pos hover] at hfound
      cases hfound
      refine ⟨by rw [Life.exit, if_pos hover], ⟨hstart.trans hpassed, hended⟩,
        fun q _ => hkept q, deeds, hdeeds, fun q => ?_⟩
      exact iff_of_false (hnone q) fun hkilled => hkilled.2 hover
    · rw [Life.collected, if_neg hover] at hfound
      cases hfound
  | killed hrunning hkill hcollect =>
    obtain ⟨hfound, rfl⟩ := hsame hrunning
    by_cases hover : (life p).OverBy (max start deadline)
    · rw [Life.collected, if_pos hover] at hfound
      cases hfound
    · obtain ⟨s, t, hkill', hcollect', hclock, hkept'⟩ :=
        hlives.kill p _ (hkept p halive) fun hover' => hover (hover'.mono hended)
      cases hkill.symm.trans hkill'
      have hcut := hcollect.symm.trans hcollect'
      simp only [Prod.mk.injEq, Except.ok.injEq] at hcut
      obtain ⟨hcut, rfl⟩ := hcut
      refine ⟨by rw [Life.exit, if_neg hover, ← hcut], ⟨?_, ?_⟩, ?_,
        deeds ++ [.kill p, .collect p none], by simp [World.history_after, hdeeds], fun q => ?_⟩
      · exact (hstart.trans hpassed).trans (ge_of_eq hclock)
      · exact hclock.trans_le hended
      · exact fun q hq hq' => hkept' q hq (hkept q hq')
      · simp [hnone q, hover]

/-- Reading an output that can be read does not fail. -/
theorem readOutput_completes (i : Nat) (record : Record Rat π) {output : Option String}
    (hlegible : Legible Rat output) :
    Completes (σ := σ) (fun _ => True) (readOutput i record output) fun _ _ => True := by
  intro w _
  unfold readOutput
  cases hfind : (findReport (output.getD "") : Finding Rat) with
  | nothing | report _ | unreadable _ => trivial
  | count sent =>
    cases sent with
    | ok _ => trivial
    | error f => exact absurd hfind (hlegible f)

/-- A world in which each of some open records has its own process, which was not killed, and whose
output can be read. It is no later than it may be. -/
structure Gathered (life : π → Life) (clock : σ → Rat) (alive : σ → π → Prop) (start horizon : Rat)
    (positions : List Nat) (w : World Rat σ π) : Prop where
  started : start ≤ clock w.state.env
  inTime : clock w.state.env ≤ horizon
  crew : ∀ i ∈ positions, ∀ r, w.record? i = some r → r.settled = false →
    ∃ p, r.process = some p ∧ alive w.state.env p ∧ Legible Rat (life p).output
  apart : ∀ i ∈ positions, ∀ j ∈ positions, ∀ r s p, w.record? i = some r → w.record? j = some s →
    r.settled = false → s.settled = false → r.process = some p → s.process = some p → i = j

/-- What a round does for a record: nothing if it is settled. Otherwise the record tells the outcome
of its process's life, which is killed exactly if it does not exit in time. -/
def Judged (life : π → Life) (horizon : Rat) (before after : Option (Record Rat π))
    (deeds : List (Deed Rat π)) : Prop :=
  ∀ r, before = some r → (r.settled = true → after = some r ∧ deeds = []) ∧
    ∀ p, r.settled = false → r.process = some p →
      (∃ s, after = some s ∧ s.settled = true ∧ s.told = (life p).outcome horizon r) ∧
      ∀ q, .kill q ∈ deeds ↔ q = p ∧ ¬ (life p).OverBy horizon

variable {positions : List Nat}

theorem joinOne_completes (limit : Rat) (hlives : y.host.Lives clock alive life)
    (hw : Gathered life clock alive start (max start deadline) positions w) (hi : i ∈ positions) :
    Completes (· = w) (joinOne y limit deadline i) fun _ _ => True := by
  unfold joinOne
  refine Completes.bind Completes.recordAt? fun found => ?_
  cases found with
  | none => exact fun _ _ => trivial
  | some r =>
    cases hopen : r.settled with
    | true =>
      simp only [hopen, if_true]
      exact fun _ _ => trivial
    | false =>
      simp only [hopen, Bool.false_eq_true, if_false]
      intro v hyp
      obtain ⟨rfl, hr⟩ := hyp
      obtain ⟨p, hprocess, halive, hlegible⟩ := hw.crew i hi r hr hopen
      simp only [hprocess]
      obtain ⟨v', hcollected, _, hended, hkept⟩ :=
        collect_lives deadline hlives halive hw.started hw.inTime
      refine Completes.bind (Completes.of_run (Q := fun found u => u = v' ∧
        found = (life p).collected (max start deadline)) hcollected.run ⟨rfl, rfl⟩)
        (fun found => ?_) v rfl
      intro u hyp
      obtain ⟨rfl, hfound⟩ := hyp
      unfold Life.collected at hfound
      split at hfound
      -- what it wrote can be read, and then only the record and the log are left
      · subst hfound
        refine Completes.bind (readOutput_completes i r hlegible) (fun _ => ?_) u trivial
        split
        · exact fun _ _ => trivial
        · exact fun _ _ => trivial
      · rename_i hlate
        subst hfound
        obtain ⟨s, t, hkill, hcut, _⟩ :=
          hlives.kill p _ (hkept p halive) fun hover => hlate (hover.mono hended)
        simp only [Action.runFrom_bind, act_run, hkill, World.after_env, hcut]
        trivial

/-- When one record is settled, and no process but its own is killed, the others stay gathered. -/
theorem Gathered.without {horizon : Rat} (hw : Gathered life clock alive start horizon positions w)
    (hi : i ∈ positions) (hr : w.record? i = some r) (hopen : r.settled = false)
    (hprocess : r.process = some p) (hstarted : start ≤ clock u.state.env)
    (hended : clock u.state.env ≤ horizon)
    (hsettled : ∀ t, u.record? i = some t → t.settled = true)
    (hothers : ∀ j, j ≠ i → u.record? j = w.record? j)
    (hkept : ∀ q, q ≠ p → alive w.state.env q → alive u.state.env q) :
    Gathered life clock alive start horizon positions u := by
  have hback : ∀ j t, u.record? j = some t → t.settled = false →
      j ≠ i ∧ w.record? j = some t := by
    intro j t ht hopen'
    by_cases hji : j = i
    · subst hji
      exact absurd (hopen'.symm.trans (hsettled t ht)) Bool.false_ne_true
    · exact ⟨hji, hothers j hji ▸ ht⟩
  refine ⟨hstarted, hended, ?_, ?_⟩
  -- an open record is another one, so it had another process and still has it
  · intro j hj t ht hopen'
    obtain ⟨hji, ht⟩ := hback j t ht hopen'
    obtain ⟨q, hq, halive, hlegible⟩ := hw.crew j hj t ht hopen'
    refine ⟨q, hq, hkept q ?_ halive, hlegible⟩
    rintro rfl
    exact hji (hw.apart j hj i hi t r q ht hr hopen' hopen hq hprocess)
  · intro j hj k hk t t' q ht ht' hopen₁ hopen₂
    exact hw.apart j hj k hk t t' q (hback j t ht hopen₁).2 (hback k t' ht' hopen₂).2 hopen₁ hopen₂

/-- A round returns and judges its own record, and the others stay gathered. -/
theorem Gathered.round (limit : Rat) (hlives : y.host.Lives clock alive life)
    (hw : Gathered life clock alive start (max start deadline) positions w) (hi : i ∈ positions) :
    ∃ u, Action.runFrom (joinOne y limit deadline i) w = (.ok (), u) ∧
      (Joined y deadline i w u ∧ ∃ deeds, u.history = w.history ++ deeds ∧
        Judged life (max start deadline) (w.record? i) (World.record? u i) deeds) ∧
      Gathered life clock alive start (max start deadline) positions u := by
  obtain ⟨_, u, hrun, hu, _⟩ := (joinOne_completes limit hlives hw hi).turns
    (joinOne_turns y limit deadline i w) rfl
  refine ⟨u, hrun, ?_⟩
  cases hu with
  | passed hsettled =>
    refine ⟨⟨.passed hsettled, [], by simp, fun r hr => ⟨fun _ => ⟨hr, rfl⟩, fun p hopen => ?_⟩⟩, hw⟩
    exact absurd (hopen.symm.trans (hsettled r hr)) Bool.false_ne_true
  | @closed r p e v u hr hopen hprocess hparted hcloses =>
    obtain ⟨p', hprocess', halive, _⟩ := hw.crew i hi r hr hopen
    obtain rfl : p = p' := Option.some.inj (hprocess.symm.trans hprocess')
    obtain ⟨rfl, ⟨hstarted, hended⟩, hkept, deeds, hdeeds, hkill⟩ :=
      hparted.lives hlives halive hw.started hw.inTime
    have hv : ∀ j, v.record? j = w.record? j := World.record?_congr hparted.records.1
    obtain ⟨s, closing, hs, hclosing, hclosed⟩ := hcloses.closing ((hv i).trans hr)
    refine ⟨⟨.closed hr hopen hprocess hparted hcloses, deeds ++ closing, ?_, ?_⟩, ?_⟩
    · rw [hclosing, hdeeds, List.append_assoc]
    · intro r' hr'
      obtain rfl : r = r' := Option.some.inj (hr.symm.trans hr')
      refine ⟨fun hsettled => absurd (hopen.symm.trans hsettled) Bool.false_ne_true, ?_⟩
      intro q _ hq
      obtain rfl : p = q := Option.some.inj (hprocess.symm.trans hq)
      refine ⟨⟨s, hs, hclosed.settled, ?_⟩, fun q => ?_⟩
      · obtain ⟨error, _, _, rfl, _⟩ := hclosed
        exact (life p).told_closed p _ r error
      · rw [List.mem_append, hkill]
        exact or_iff_left (hclosed.not_mem_kill q)
    · have hsettled : ∀ t, World.record? u i = some t → t.settled = true := by
        intro t ht
        obtain rfl : s = t := Option.some.inj (hs.symm.trans ht)
        exact hclosed.settled
      exact hw.without hi hr hopen hprocess (hcloses.env ▸ hstarted) (hcloses.env ▸ hended) hsettled
        (fun j hj => (hcloses.others j hj).trans (hv j)) (hcloses.env ▸ hkept)

end Fleet

/-! ## §4 A machine for some lives -/

namespace Bench

/-- The time on the clock, and the processes that were killed. -/
structure Course where
  time : Rat
  killed : List Nat := []

/-- The machine on which the processes lead given lives. -/
def living (life : Nat → Life) : Host Rat Course Nat where
  now s := (.ok s.time, s)
  sleep time s := (.ok (), { s with time := s.time + time })
  launch _ _ s := (.ok 0, s)
  poll p s := (.ok (if (life p).OverBy s.time then some (life p).code else none), s)
  collect p s :=
    (.ok (if p ∈ s.killed then (life p).cut else ((life p).output, some (life p).code)), s)
  collectWithin p limit s :=
    match (life p).exitAt with
    | some e =>
      if e ≤ s.time + limit then
        (.ok (some ((life p).output, some (life p).code)), { s with time := max s.time e })
      else (.ok none, { s with time := s.time + limit })
    | none => (.ok none, { s with time := s.time + limit })
  await p s := (.ok (life p).cut.2, s)
  awaitWithin _ limit s := (.ok none, { s with time := s.time + limit })
  terminate _ s := (.ok (), s)
  kill p s := (.ok (), { s with killed := p :: s.killed })
  pid p := p

/-- The processes do lead these lives. -/
theorem living_lives (life : Nat → Life) :
    (living life).Lives Course.time (fun s p => p ∉ s.killed) life where
  now s := ⟨s, rfl, rfl, fun _ => id⟩
  poll p s _ := ⟨s, rfl, rfl, fun _ => id⟩
  collect p s halive _ := by
    refine ⟨s, ?_, rfl, fun _ => id⟩
    simp only [living, if_neg halive]
  inTime p limit s e halive _ he hle := by
    refine ⟨{ s with time := max s.time e }, ?_, rfl, fun _ => id⟩
    simp only [living, he, if_pos hle]
  expired p limit s halive _ hover := by
    refine ⟨{ s with time := s.time + limit }, ?_, rfl, fun _ => id⟩
    cases he : (life p).exitAt with
    | none => simp only [living, he]
    | some e =>
      have hlate : ¬ e ≤ s.time + limit := fun hle => hover ⟨e, he, hle⟩
      simp only [living, he, if_neg hlate]
  kill p s _ _ := by
    refine ⟨{ s with killed := p :: s.killed }, { s with killed := p :: s.killed }, rfl, ?_, rfl, ?_⟩
    · simp [living]
    · intro q hq halive hkilled
      exact (List.mem_cons.1 hkilled).elim hq halive

/-- One publisher that never exits, one that exits just in time, and one that exits too late. -/
def lives : Nat → Life
  | 0 => ⟨none, 0, none, (none, some (-9))⟩
  | 1 => ⟨some 11, 0, some "sent=5 elapsed=1.0", (none, some (-9))⟩
  | _ => ⟨some 12, 0, some "sent=7 elapsed=1.0", (none, some (-9))⟩

/-- The same, but the first publisher fails at once. -/
def otherLives : Nat → Life
  | 0 => ⟨some 0, 1, none, (none, some (-9))⟩
  | p => lives p

/-- What a run needs to wait for these publishers: eleven seconds. -/
def row (life : Nat → Life) : Yard Rat Course Nat where
  host := living life
  workshop :=
    { sources := "src", compile := fun _ s => (true, s), command := fun _ s => (.ok (), s),
      isFile := fun _ s => (true, s), isExecutable := fun _ s => (true, s) }
  plan := hung.plan
  build := .bundled "python"
  patience := hung.patience

/-- Three publishers were started. -/
def started : Fleet.World Rat Course Nat :=
  { state := { env := ⟨0, []⟩, records :=
      [{ role := .publisher, index := 0, process := some 0 },
       { role := .publisher, index := 1, process := some 1 },
       { role := .publisher, index := 2, process := some 2 }] } }

theorem legible_lives : ∀ p, Legible Rat (lives p).output
  | 0, _ => nofun
  | 1, _ => nofun
  | _ + 2, f => show (findReport "sent=7 elapsed=1.0" : Finding Rat) ≠ .count (.error f) from nofun

theorem legible_otherLives : ∀ p, Legible Rat (otherLives p).output
  | 0, _ => nofun
  | p + 1, f => legible_lives (p + 1) f

theorem started_process : ∀ i r, started.record? i = some r → r.process = some i
  | 0, _, h | 1, _, h | 2, _, h => by cases h; rfl
  | _ + 3, _, h => by cases h

end Bench

namespace Fleet

variable {y : Yard Rat σ π} {clock : σ → Rat} {alive : σ → π → Prop} {life : π → Life}
  {u w : World Rat σ π}

/-! ## §5 All publishers -/

/-- A world in which every open publisher has its own process, which was not killed, and whose output
can be read, on a machine on which the processes lead their lives. -/
structure Assembled (y : Yard Rat σ π) (life : π → Life) (clock : σ → Rat)
    (alive : σ → π → Prop) (w : World Rat σ π) : Prop where
  lives : y.host.Lives clock alive life
  crew : ∀ i r, w.record? i = some r → r.role = .publisher → r.settled = false →
    ∃ p, r.process = some p ∧ alive w.state.env p ∧ Legible Rat (life p).output
  apart : ∀ i j r s p, w.record? i = some r → w.record? j = some s → r.role = .publisher →
    s.role = .publisher → r.settled = false → s.settled = false → r.process = some p →
    s.process = some p → i = j

/-- Until when a publisher may run: the end of the grace after its duration, or the start of waiting
if that is later. -/
def horizonOf (y : Yard Rat σ π) (grace start : Rat) : Rat :=
  max start (start + (y.plan.duration + grace))

theorem Assembled.gathered (hw : Assembled y life clock alive w) {s : σ}
    (hstill : Still clock alive w.state.env s) {horizon : Rat}
    (hhorizon : clock w.state.env ≤ horizon) :
    Gathered life clock alive (clock w.state.env) horizon (w.positionsOf .publisher)
      (w.after .readClock s) where
  started := ge_of_eq hstill.1
  inTime := hstill.1.trans_le hhorizon
  crew := by
    intro i hi r hr hopen
    obtain ⟨r', hr', hrole⟩ := w.mem_positionsOf.1 hi
    obtain rfl : r = r' := Option.some.inj (hr.symm.trans hr')
    obtain ⟨p, hprocess, halive, hlegible⟩ := hw.crew i r hr hrole hopen
    exact ⟨p, hprocess, hstill.2 p halive, hlegible⟩
  apart := by
    intro i hi j hj r s p hr hs hopen hopen'
    obtain ⟨r', hr', hrole⟩ := w.mem_positionsOf.1 hi
    obtain rfl : r = r' := Option.some.inj (hr.symm.trans hr')
    obtain ⟨s', hs', hrole'⟩ := w.mem_positionsOf.1 hj
    obtain rfl : s = s' := Option.some.inj (hs.symm.trans hs')
    exact hw.apart i j r s p hr hs hrole hrole' hopen hopen'

/-- What waiting for the publishers does: every open one is recorded as the outcome of its own life,
and killed exactly if it does not exit in time. All other records stay as they are. -/
structure AllJudged (life : π → Life) (horizon : Rat) (w u : World Rat σ π) : Prop where
  told : ∀ i r p, w.record? i = some r → r.role = .publisher → r.settled = false →
    r.process = some p →
    ∃ s, u.record? i = some s ∧ s.settled = true ∧ s.told = (life p).outcome horizon r
  others : ∀ i r, w.record? i = some r → r.role ≠ .publisher ∨ r.settled = true →
    u.record? i = some r
  killed : ∃ deeds, u.history = w.history ++ deeds ∧ ∀ i r p, w.record? i = some r →
    r.role = .publisher → r.settled = false → r.process = some p →
    (.kill p ∈ deeds ↔ ¬ (life p).OverBy horizon)

/-- Only the round of a publisher itself kills its process, and it does so exactly if the process does
not exit in time. -/
theorem Assembled.kill_mem_iff (hw : Assembled y life clock alive w) {horizon : Rat}
    {after : Nat → Option (Record Rat π)} {parts : List (List (Deed Rat π))}
    (hjudged : List.Forall₂ (fun i deeds => Judged life horizon (w.record? i) (after i) deeds)
      (w.positionsOf .publisher) parts)
    {i : Nat} {r : Record Rat π} {p : π} (hr : w.record? i = some r) (hrole : r.role = .publisher)
    (hopen : r.settled = false) (hprocess : r.process = some p) :
    .kill p ∈ parts.flatten ↔ ¬ (life p).OverBy horizon := by
  constructor
  · intro hkill
    obtain ⟨part, hpart, hkill⟩ := List.mem_flatten.1 hkill
    obtain ⟨j, hj, hdeeds⟩ := exists_of_forall₂ hjudged.flip hpart
    obtain ⟨t, ht, hrole'⟩ := w.mem_positionsOf.1 hj
    have hthis := hdeeds t ht
    cases hopen' : t.settled with
    | true =>
      rw [(hthis.1 hopen').2] at hkill
      exact absurd hkill List.not_mem_nil
    | false =>
      obtain ⟨q, hq, _⟩ := hw.crew j t ht hrole' hopen'
      obtain ⟨rfl, hlate⟩ := ((hthis.2 q hopen' hq).2 p).1 hkill
      exact hlate
  · intro hlate
    have hi : i ∈ w.positionsOf .publisher := w.mem_positionsOf.2 ⟨r, hr, hrole⟩
    obtain ⟨deeds, hdeeds, hthis⟩ := exists_of_forall₂ hjudged hi
    refine List.mem_flatten.2 ⟨deeds, hdeeds, ?_⟩
    exact (((hthis r hr).2 p hopen hprocess).2 p).2 ⟨rfl, hlate⟩

/-- Waiting for the publishers returns and judges every one by its own life. -/
theorem joinPublishers_judges {grace : Rat} (hgrace : y.patience.graceMargin = some grace)
    (hw : Assembled y life clock alive w) :
    ∃ u, Action.runFrom (joinPublishers y) w = (.ok (), u) ∧
      AllJudged life (horizonOf y grace (clock w.state.env)) w u := by
  obtain ⟨s, hnow, hstill⟩ := hw.lives.now w.state.env
  obtain ⟨u, hrun, hrounds, _⟩ := forEach_completes
    (fun i hi v hv => Gathered.round (y.plan.duration + grace) hw.lives hv hi)
    (hw.gathered hstill (le_max_left _ (clock w.state.env + (y.plan.duration + grace))))
  obtain ⟨hothers, parts, hparts, hjudged⟩ := hrounds.apart
    (D := fun _ => Judged life (horizonOf y grace (clock w.state.env)))
    (fun i a b hyp => local_joined y _ i a b hyp.1) (fun i a b hyp => hyp.2)
    (w.nodup_positionsOf _)
  have hmem : ∀ {i r}, w.record? i = some r → r.role = .publisher →
      i ∈ w.positionsOf .publisher := fun hr hrole => w.mem_positionsOf.2 ⟨_, hr, hrole⟩
  refine ⟨u, ?_, ?_, ?_, .readClock :: parts.flatten, ?_, ?_⟩
  · have hneeded : Action.runFrom (Action.ofExcept (needed .sum y.patience.graceMargin)) w =
        (.ok grace, w) := by
      rw [hgrace]
      rfl
    simp only [joinPublishers, Action.runFrom_bind, hneeded, now, act_run, hnow, positionsOf_eq]
    exact hrun
  · intro i r p hr hrole hopen hprocess
    obtain ⟨deeds, _, hdeeds⟩ := exists_of_forall₂ hjudged (hmem hr hrole)
    exact ((hdeeds r hr).2 p hopen hprocess).1
  · intro i r hr hidle
    rcases hidle with hrole | hsettled
    · refine (hothers i fun hi => ?_).trans hr
      obtain ⟨r', hr', hrole'⟩ := w.mem_positionsOf.1 hi
      obtain rfl : r = r' := Option.some.inj (hr.symm.trans hr')
      exact hrole hrole'
    · by_cases hi : i ∈ w.positionsOf .publisher
      · obtain ⟨deeds, _, hdeeds⟩ := exists_of_forall₂ hjudged hi
        exact ((hdeeds r hr).1 hsettled).1
      · exact (hothers i hi).trans hr
  · rw [hparts, World.history_after, List.append_assoc, List.singleton_append]
  · intro i r p hr hrole hopen hprocess
    rw [List.mem_cons, ← hw.kill_mem_iff hjudged hr hrole hopen hprocess]
    exact or_iff_right (by simp)

/-- Every publisher is judged by its own life: it is killed exactly if it exits after the horizon, or
never, and otherwise it is recorded by its own exit code and output. So on another machine, on which
other publishers lead other lives, it is recorded just the same. -/
theorem publishers_judged_alone {grace : Rat} (hgrace : y.patience.graceMargin = some grace)
    (hw : Assembled y life clock alive w) :
    ∃ u, Action.runFrom (joinPublishers y) w = (.ok (), u) ∧
      AllJudged life (horizonOf y grace (clock w.state.env)) w u ∧
      ∀ (h : Host Rat σ π) (life' : π → Life) (clock' : σ → Rat) (alive' : σ → π → Prop)
        (w' : World Rat σ π), Assembled { y with host := h } life' clock' alive' w' →
        clock' w'.state.env = clock w.state.env →
        ∃ u', Action.runFrom (joinPublishers { y with host := h }) w' = (.ok (), u') ∧
          ∀ i r p, w.record? i = some r → w'.record? i = some r → r.role = .publisher →
            r.settled = false → r.process = some p → life' p = life p →
            ∃ s s', World.record? u i = some s ∧ World.record? u' i = some s' ∧
              s'.told = s.told := by
  obtain ⟨u, hrun, hjudged⟩ := joinPublishers_judges hgrace hw
  refine ⟨u, hrun, hjudged, fun h life' clock' alive' w' hw' hclock => ?_⟩
  obtain ⟨u', hrun', hjudged'⟩ := joinPublishers_judges (y := { y with host := h }) hgrace hw'
  refine ⟨u', hrun', fun i r p hr hr' hrole hopen hprocess hlife => ?_⟩
  obtain ⟨s, hs, _, htold⟩ := hjudged.told i r p hr hrole hopen hprocess
  obtain ⟨s', hs', _, htold'⟩ := hjudged'.told i r p hr' hrole hopen hprocess
  refine ⟨s, s', hs, hs', ?_⟩
  rw [htold, htold', hlife, hclock]
  rfl

theorem assembled_started (life : Nat → Life) (hlegible : ∀ p, Legible Rat (life p).output) :
    Assembled (Bench.row life) life Bench.Course.time (fun s p => p ∉ s.killed)
      Bench.started where
  lives := Bench.living_lives life
  crew i r hr _ _ := ⟨i, Bench.started_process i r hr, List.not_mem_nil, hlegible i⟩
  apart := by
    intro i j r s p hr hs _ _ _ _ hp hq
    have hi : some i = some p := (Bench.started_process i r hr).symm.trans hp
    have hj : some j = some p := (Bench.started_process j s hs).symm.trans hq
    exact Option.some.inj (hi.trans hj.symm)

/-- A publisher that exits just in time succeeds behind one that hangs, as it does behind one that
fails at once. -/
theorem hung_publisher_holds_up_nobody :
    ∃ u u' s s', Action.runFrom (joinPublishers (Bench.row Bench.lives)) Bench.started = (.ok (), u) ∧
      Action.runFrom (joinPublishers (Bench.row Bench.otherLives)) Bench.started = (.ok (), u') ∧
      World.record? u 1 = some s ∧ World.record? u' 1 = some s' ∧
      s.told = (.success, some 0, some 5, some 1) ∧ s'.told = s.told := by
  have hgrace : (Bench.row Bench.lives).patience.graceMargin = some 10 := rfl
  obtain ⟨u, hrun, hjudged, hother⟩ :=
    publishers_judged_alone hgrace (assembled_started Bench.lives Bench.legible_lives)
  obtain ⟨u', hrun', hsame⟩ := hother (Bench.living Bench.otherLives) _ _ _ _
    (assembled_started Bench.otherLives Bench.legible_otherLives) rfl
  obtain ⟨s, s', hs, hs', htold⟩ := hsame 1 _ 1 rfl rfl rfl rfl rfl rfl
  obtain ⟨t, ht, _, htold'⟩ := hjudged.told 1 _ 1 rfl rfl rfl rfl
  obtain rfl : s = t := Option.some.inj (hs.symm.trans ht)
  have houtcome : (Bench.lives 1).outcome (horizonOf (Bench.row Bench.lives) 10 0)
      { role := .publisher, index := 1, process := some 1 } =
      (.success, some 0, some 5, some 1) := by
    decide +kernel
  exact ⟨u, u', s, s', hrun, hrun', hs, hs', htold'.trans houtcome, htold⟩

end Fleet

end BrokerLoad
