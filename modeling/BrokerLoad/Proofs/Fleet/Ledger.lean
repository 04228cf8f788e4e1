import BrokerLoad.Proofs.Fleet.Bench
import BrokerLoad.Proofs.Fleet.Sweep
import BrokerLoad.Proofs.Fleet.Tally

/-!
# What a run leaves behind

No process outlives the run that started it, and every record that has a process is settled once.
This holds however the run ends, as long as the cleanup itself is not stopped: the invariant is that
a process that the launcher has returned has exited or belongs to an open record, and the cleanup
closes these.

## Main definitions

* `Fleet.Ledger`: the invariant.
* `Fleet.World.Reaped`: nothing is running any more.
* `Fleet.Reckoning`: what a run leaves behind.

## Main statements

* `Fleet.Path.ledger`: every step keeps the invariant.
* `Fleet.no_process_outlives_run`: the invariant and the cleanup together.
-/

namespace BrokerLoad

variable {τ σ π : Type}

namespace Fleet

/-! ## §1 The invariant -/

/-- A process that the launcher has returned has exited or belongs to an open record, and the process
of a settled record has exited. -/
structure Ledger (F : Fates σ π) (w : World τ σ π) : Prop where
  manned : ∀ p, F.launched w.state.env p → F.exited w.state.env p ∨ ∃ i, Busy i p w
  exited : ∀ i r p, w.record? i = some r → r.process = some p → r.settled = true →
    F.exited w.state.env p

/-- Nothing is running any more: what the launcher returned has exited, and every record that has a
process is settled. -/
structure World.Reaped (F : Fates σ π) (w : World τ σ π) : Prop where
  launched : ∀ p, F.launched w.state.env p → F.exited w.state.env p
  records : ∀ i r p, w.record? i = some r → r.process = some p →
    r.settled = true ∧ F.exited w.state.env p

variable {h : Host τ σ π} {F : Fates σ π} {ok : Deed τ π → Prop} {u v w : World τ σ π}

theorem World.Reaped.ledger (hw : w.Reaped F) : Ledger F w where
  manned p hp := .inl (hw.launched p hp)
  exited i r p hr hp _ := (hw.records i r p hr hp).2

/-- When no open record has a process, nothing is running any more. -/
theorem Ledger.reaped (hw : Ledger F w) (hidle : ∀ i, Idle i w) : w.Reaped F where
  launched p hp := by
    -- a process that has not exited would belong to an open record
    rcases hw.manned p hp with hexited | ⟨i, hbusy⟩
    · exact hexited
    · exact absurd hbusy (hidle i p)
  records i r p hr hp := by
    cases hsettled : r.settled with
    | true => exact ⟨rfl, hw.exited i r p hr hp hsettled⟩
    | false => exact absurd ⟨r, hr, hsettled, hp⟩ (hidle i p)

/-- A call that is no successful launch keeps the invariant. -/
theorem Ledger.act (hF : h.Respects F) (hu : Ledger F u) {d : Deed τ π}
    (hadmits : h.Admits F u.state.env d) :
    Ledger F (u.after d (h.perform d u.state.env).2) where
  manned p hp := by
    rcases hF.launched hp with hbefore | ⟨argv, capture, rfl, hanswer⟩
    · exact (hu.manned p hbefore).imp (hF.stays_exited d) id
    -- the process came from a launch, but this one failed
    · obtain ⟨f, hf⟩ := hadmits
      rw [hanswer] at hf
      cases hf
  exited i r p hr hp hsettled := hF.stays_exited d (hu.exited i r p hr hp hsettled)

theorem Ledger.enlist (hu : Ledger F u) (role : Role) (index : Int) :
    Ledger F ((u.noted (.enlist role index)).opened { role, index }) where
  manned p hp := by
    apply (hu.manned p hp).imp_right
    intro hyp
    obtain ⟨i, r, hr, hbusy⟩ := hyp
    exact ⟨i, r, (World.record?_opened_of_lt _ _ _ (World.lt_of_record? hr)).trans hr, hbusy⟩
  exited i r p hr hp hsettled := by
    rcases World.record?_opened_cases _ _ _ hr with hr | ⟨_, rfl⟩
    · exact hu.exited i r p hr hp hsettled
    -- a new record has no process
    · cases hp

/-- A process that the launcher returns belongs to an open record. -/
theorem Ledger.launched (hF : h.Respects F) (hu : Ledger F u) {argv : List String}
    {capture : Capture} {p : π} {env : σ} {i : Nat} {r : Record τ π}
    (hanswer : h.launch argv capture u.state.env = (.ok p, env)) (hr : u.record? i = some r)
    (hopen : r.settled = false) (hfree : r.process = none) :
    Ledger F
      ((u.after (.launch argv capture) env).changed i fun r => { r with process := some p }) where
  manned q hq := by
    -- the launcher is called like any other part of the machine
    have henv : (h.perform (.launch argv capture) u.state.env).2 = env := by
      simp only [Host.perform, bare, hanswer]
    have hq' : F.launched (h.perform (.launch argv capture) u.state.env).2 q := henv ▸ hq
    rcases hF.launched hq' with hbefore | ⟨argv', capture', hdeed, hlaunch⟩
    · refine (hu.manned q hbefore).imp (fun hexited => ?_) ?_
      · exact henv ▸ hF.stays_exited (.launch argv capture) hexited
      · intro h
        obtain ⟨j, s, hs, hbusy⟩ := h
        -- the record that the process goes to had none
        have hij : i ≠ j := by
          intro heq
          subst heq
          obtain rfl : r = s := Option.some.inj (hr.symm.trans hs)
          rw [hfree] at hbusy
          cases hbusy.2
        exact ⟨j, s, (World.record?_changed_of_ne _ _ _ _ hij).trans hs, hbusy⟩
    -- the process that was just launched belongs to the record that it was launched for
    · cases hdeed
      rw [hanswer] at hlaunch
      cases hlaunch
      refine .inr ⟨i, { r with process := some p }, ?_, hopen, rfl⟩
      rw [World.record?_changed_self, World.record?_after, hr]
      rfl
  exited j s q hs hq hsettled := by
    rcases World.record?_changed_cases _ _ _ _ hs with ⟨_, hs⟩ | ⟨rfl, r', hr', rfl⟩
    · have hexited := hF.stays_exited (.launch argv capture) (hu.exited j s q hs hq hsettled)
      simp only [Host.perform, bare, hanswer] at hexited
      exact hexited
    -- that record is open
    · obtain rfl : r = r' := Option.some.inj (hr.symm.trans hr')
      exact absurd (hopen.symm.trans hsettled) Bool.false_ne_true

theorem Ledger.report (hu : Ledger F u) {i : Nat} {r : Record τ π}
    {f : Record τ π → Record τ π} (hr : u.record? i = some r)
    (hf : ∃ sent elapsed, f r = { r with sent, elapsed }) : Ledger F (u.changed i f) where
  manned p hp := by
    obtain ⟨sent, elapsed, hf⟩ := hf
    apply (hu.manned p hp).imp_right
    intro h
    obtain ⟨j, s, hs, hopen, hprocess⟩ := h
    -- the record of the report stays open and keeps its process
    by_cases hij : i = j
    · subst hij
      obtain rfl : r = s := Option.some.inj (hr.symm.trans hs)
      refine ⟨i, { r with sent, elapsed }, ?_, hopen, hprocess⟩
      rw [World.record?_changed_self, hr, ← hf]
      rfl
    · exact ⟨j, s, (World.record?_changed_of_ne _ _ _ _ hij).trans hs, hopen, hprocess⟩
  exited j s p hs hp hsettled := by
    obtain ⟨sent, elapsed, hf⟩ := hf
    rcases World.record?_changed_cases _ _ _ _ hs with ⟨_, hs⟩ | ⟨rfl, r', hr', rfl⟩
    · exact hu.exited j s p hs hp hsettled
    · obtain rfl : r = r' := Option.some.inj (hr.symm.trans hr')
      rw [hf] at hp hsettled
      exact hu.exited i r p hr hp hsettled

/-- A record is settled when its process has exited. -/
theorem Ledger.settle (hu : Ledger F u) {i : Nat} {r : Record τ π} {status : Status}
    (returncode : Option Int) (error : Option String) (hr : u.record? i = some r)
    (hexited : ∀ p, r.process = some p → F.exited u.state.env p) :
    Ledger F ((u.noted (.settle i status returncode error)).changed i
      fun r => r.settle status returncode error) where
  manned p hp := by
    rcases hu.manned p hp with hp | ⟨j, s, hs, hbusy, hprocess⟩
    · exact .inl hp
    -- the record that is settled no longer needs to be open: its process has exited
    · by_cases hij : i = j
      · subst hij
        obtain rfl : r = s := Option.some.inj (hr.symm.trans hs)
        exact .inl (hexited p hprocess)
      · exact .inr ⟨j, s, (World.record?_changed_of_ne _ _ _ _ hij).trans hs, hbusy, hprocess⟩
  exited j s p hs hp hsettled := by
    rcases World.record?_changed_cases _ _ _ _ hs with ⟨_, hs⟩ | ⟨rfl, r', hr', rfl⟩
    · exact hu.exited j s p hs hp hsettled
    · obtain rfl : r = r' := Option.some.inj (hr.symm.trans hr')
      rw [Record.settle_process] at hp
      exact hexited p hp

theorem Step.ledger (hF : h.Respects F) (hs : Step h F ok u v) (hu : Ledger F u) :
    Ledger F v := by
  cases hs with
  | act _ hadmits => exact hu.act hF hadmits
  | enlist _ => exact hu.enlist _ _
  | launched _ hanswer hr hopen hfree => exact hu.launched hF hanswer hr hopen hfree
  | report hr _ hf => exact hu.report hr hf
  | settle _ hr _ _ hexited => exact hu.settle _ _ hr hexited

theorem Path.ledger (hF : h.Respects F) (hp : Path h F ok u v) (hu : Ledger F u) :
    Ledger F v :=
  hp.invariant (fun hs => hs.ledger hF) hu

/-! ## §2 The end of a run -/

section End

variable [Seconds τ] {y : Yard τ σ π} {fleet : Fleet τ σ π} {cut : World τ σ π}

/-- What a run leaves behind, where `cut` is the world in which its phases ended and `final` the one
in which the run did. Nothing is running; each of its records that has a process was settled once,
with the outcome that it has; a record that was settled before the run is as it was; and the cleanup
did to the open records that have a process what `Sweeps` says, with one kill and one wait for each
and no other visible deed, and nothing to the others. -/
structure Reckoning (y : Yard τ σ π) (F : Fates σ π) (fleet : Fleet τ σ π)
    (cut final : World τ σ π) : Prop where
  reaped : final.Reaped F
  once : ∀ i r p, ¬ SettledAt fleet.records i → final.record? i = some r → r.process = some p →
    Deed.settlements i final.history = [r.outcome]
  old : ∀ i r, fleet.records[i]? = some r → r.settled = true → final.record? i = some r
  swept : ∀ i r, cut.record? i = some r → ∃ s, final.record? i = some s ∧ Sweeps y r s
  length : final.state.records.length = cut.state.records.length
  killed : final.outline = cut.outline ++ (leftOver cut.state.records).flatMap killAndWait

theorem Reckoning.noted {final : World τ σ π} (h : Reckoning y F fleet cut final) {d : Deed τ π}
    (hd : d.Logs) : Reckoning y F fleet cut (final.noted d) where
  reaped := ⟨h.reaped.launched, h.reaped.records⟩
  once i r p hi hr hp := by
    have honce := h.once i r p hi hr hp
    simp only [Traced.history, Deed.settlements_reverse] at honce ⊢
    -- a deed of logging settles nothing
    rw [World.noted_trail, Deed.settlements_cons _ _ ?_]
    · exact honce
    · intro _ _ _ _ heq
      subst heq
      exact hd
  old := h.old
  swept := h.swept
  length := h.length
  killed := (World.outline_of_invisible rfl hd.invisible).trans h.killed

/-- What is there after the cleanup. -/
theorem reckoning_atCleanup (hF : y.host.Respects F) (hreaped : (atBuild y fleet).2.Reaped F)
    (hclean : (atCleanup y fleet).1 = .ok ()) :
    Reckoning y F fleet (atCut y fleet).2 (atCleanup y fleet).2 := by
  have hrecords := (atBuild_records y fleet).1
  obtain ⟨hphases, _, _⟩ := atCut_path hF fleet
  obtain ⟨hcleanup, hidle⟩ := atCleanup_path hF hclean
  -- the invariant holds when the phases begin, and so when the cleanup is done
  have hledger : Ledger F (atCleanup y fleet).2 :=
    hcleanup.ledger hF (hphases.ledger hF hreaped.ledger)
  have htally : Tally (SettledAt fleet.records) (atCleanup y fleet).2 :=
    hcleanup.tally (hphases.tally (tally_atBuild y fleet))
  -- the cleanup has left no open record with a process, so nothing runs any more
  have hreapedAfter : (atCleanup y fleet).2.Reaped F := hledger.reaped hidle
  have hswept := atCleanup_swept hclean
  refine ⟨hreapedAfter, ?_, ?_, ?_, hswept.length, ?_⟩
  · intro i r p hi hr hp
    have honce := htally.once i r hi hr
    rw [if_pos (hreapedAfter.records i r p hr hp).1] at honce
    rw [Traced.history, Deed.settlements_reverse, honce]
    rfl
  · intro i r hr hsettled
    have hr' : (atBuild y fleet).2.record? i = some r := by
      rw [World.record?, hrecords]
      exact hr
    -- a settled record stays the same along the phases and the cleanup
    have hpath : Path y.host F (fun _ => True) (atBuild y fleet).2 (atCleanup y fleet).2 :=
      hphases.trans (hcleanup.mono fun _ _ => trivial)
    obtain ⟨s, hs, hkeeps, _⟩ := hpath.keeps hr'
    rw [hs, hkeeps.settled hsettled]
  · intro i r hr
    obtain ⟨s, hs, hsweeps⟩ := hswept.records i r hr
    rw [if_pos (World.lt_of_record? hr)] at hsweeps
    exact ⟨s, hs, hsweeps⟩
  · have houtline := hswept.outline
    rwa [List.take_length] at houtline

/-- No process outlives the run that started it, and every outcome is set once, however the phases
end: if something cuts them, it is what the run ends with, after the cleanup. -/
theorem no_process_outlives_run (hF : y.host.Respects F) (hbuilt : (atBuild y fleet).1 = .ok ())
    (hreaped : (atBuild y fleet).2.Reaped F) (hclean : (atCleanup y fleet).1 = .ok ()) :
    Reckoning y F fleet (atCut y fleet).2 (atEnd y fleet).2 ∧
      (∀ stop, (atCut y fleet).1 = .error stop → (atEnd y fleet).1 = .error stop) ∧
      ((atCut y fleet).1 = .ok () → leftOver (atCut y fleet).2.state.records = []) := by
  have hreckoning := reckoning_atCleanup hF hreaped hclean
  refine ⟨?_, fun _ => atEnd_passes hbuilt hclean, ?_⟩
  -- summing up only adds to the log
  · rcases atEnd_world hbuilt with hfinal | ⟨d, hd, hfinal⟩
    · rw [hfinal]
      exact hreckoning
    · rw [hfinal]
      exact hreckoning.noted hd
  · intro hok
    exact leftOver_of_settled ((atCut_path hF fleet).2.2 hok)

/-- A subscriber that is warming up when the run is interrupted is killed, and the interruption is
passed on. -/
theorem interrupted_run_reaps :
    Reckoning Bench.interrupted Bench.fates Bench.fresh (atCut Bench.interrupted Bench.fresh).2
        (atEnd Bench.interrupted Bench.fresh).2 ∧
      (atEnd Bench.interrupted Bench.fresh).1 = .error (.fault .interrupted) ∧
      leftOver (atCut Bench.interrupted Bench.fresh).2.state.records = [0] := by
  have hF : Bench.interrupted.host.Respects Bench.fates :=
    Bench.respects (.ok ()) (.error .interrupted) none
  -- nothing was launched and no record opened before the run
  have hreaped : (atBuild Bench.interrupted Bench.fresh).2.Reaped Bench.fates := by
    constructor
    · intro p h
      cases h
    · intro i r p h
      cases h
  have hstruck : (atCut Bench.interrupted Bench.fresh).1 = .error (.fault .interrupted) := by rfl
  obtain ⟨hreckoning, hpassed, _⟩ :=
    no_process_outlives_run hF (by rfl) hreaped (by rfl)
  exact ⟨hreckoning, hpassed _ hstruck, by rfl⟩

end End

end Fleet

end BrokerLoad
