import BrokerLoad.Proofs.Fleet.Loops
import BrokerLoad.Proofs.Fleet.Return

/-!
# What the phases need of the machine

All that a run reads was given by the machine. And phases that are not cut have needed all their
times: the machine has slept for the warm-up, and both times of grace were given.

## Main definitions

* `Fleet.Served`: what phases that are not cut have got.

## Main statements

* `Fleet.phases_served`: what the phases hear and need.
* `Fleet.uncut_of_legible`: when nothing cuts the phases.
-/

namespace BrokerLoad

namespace Fleet

variable {τ σ π : Type} [Seconds τ] {y : Yard τ σ π} {F : Fates σ π} {start u w : World τ σ π}
  {role : Role} {fleet : Fleet τ σ π} {limits : Limits τ}

/-! ## §1 Reading -/

theorem Spawned.heard {k : Nat} (hu : Spawned y role k w u) : Heard y.host w u := by
  have hpath : Path y.host Fates.blank (Deed.Starts y role (k + 1)) w u :=
    hu.path (Nat.lt_succ_self k)
  exact heard_of_path hpath fun _ _ => id

theorem Balked.heard {index : Int} {f : Fault} (hu : Balked y role index w f u) :
    Heard y.host w u := by
  have henlisted : Heard y.host w (w.enlisted role index) := heard_of_trail rfl (by simp)
  cases hu with
  | unwritable _ => exact henlisted
  | raised _ _ => exact henlisted.trans (heard_of_trail rfl (by simp [launchDeed]))

theorem spawnFrom_heard (y : Yard τ σ π) (start : World τ σ π) (role : Role) (count : Nat) :
    (spawnFrom y role 0 count).Meets (Heard y.host start) (fun _ => Heard y.host start)
      (Action.Faulty fun _ u => Heard y.host start u) :=
  spawnFrom_meets y role 0 count (I := fun _ => Heard y.host start)
    (fun _ _ _ _ _ hw hspawned => hw.trans hspawned.heard)
    fun _ _ _ _ _ _ hw hbalked => hw.trans hbalked.heard

theorem warmUp_heard (y : Yard τ σ π) (start : World τ σ π) :
    (warmUp y).Meets (Heard y.host start)
      (fun _ u => Heard y.host start u ∧
        ∃ time s, y.patience.warmup = some time ∧ (y.host.sleep time s).1 = .ok ())
      (Action.Faulty fun _ u => Heard y.host start u) := by
  apply Action.Meets.of_eq
  intro w hw
  have hslept : ∀ record time env,
      Heard y.host start ((w.noted (.log record)).after (.sleep time) env) := by
    intro record time env
    have hlogged : Heard y.host w (w.noted (.log record)) := heard_of_trail rfl (by simp)
    exact (hw.trans hlogged).trans (heard_of_trail rfl (by simp))
  refine (warmUp_meets y w).mono (fun _ => id) ?_ (Action.Faulty.mono ?_)
  · intro _ u hyp
    obtain ⟨time, env, record, htime, hsleep, rfl⟩ := hyp
    exact ⟨hslept _ _ _, time, w.state.env, htime, by rw [hsleep]⟩
  · intro f u hyp
    rcases hyp with ⟨_, rfl⟩ | ⟨time, env, record, _, _, rfl⟩
    · exact hw.trans (heard_of_trail rfl (by simp))
    · exact hslept _ _ _

/-! ## §2 All phases -/

/-- What phases that are not cut have got: the machine has slept for the time of the warm-up, and the
other times are given. -/
structure Served (y : Yard τ σ π) : Prop where
  slept : ∃ time s, y.patience.warmup = some time ∧ (y.host.sleep time s).1 = .ok ()
  grace : y.patience.graceMargin ≠ none
  stop : y.patience.stopGrace ≠ none

/-- The phases hear nothing but what the machine gives, and need all their times. -/
theorem phases_served (y : Yard τ σ π) (start : World τ σ π) :
    (phases y).Meets (Heard y.host start) (fun _ u => Heard y.host start u ∧ Served y)
      (Action.Faulty fun _ u => Heard y.host start u) := by
  -- which times were needed by then; what was known before a phase is known after it
  have hphases := phases_meets (y := y) (E := fun _ u => Heard y.host start u)
    (I := fun k u => Heard y.host start u ∧
      (2 ≤ k → ∃ time s, y.patience.warmup = some time ∧ (y.host.sleep time s).1 = .ok ()) ∧
      (4 ≤ k → y.patience.graceMargin ≠ none) ∧ (6 ≤ k → y.patience.stopGrace ≠ none))
    ?_ ?_ ?_ ?_ ?_ ?_ ?_
  · refine hphases.mono (fun u hu => ⟨hu, by omega, by omega, by omega⟩) ?_ fun _ _ => id
    intro _ u hyp
    obtain ⟨hu, hslept, hgrace, hstop⟩ := hyp
    exact ⟨hu, hslept (by omega), hgrace (by omega), hstop (by omega)⟩
  · exact fun k w record hw => ⟨hw.1.trans (heard_of_trail rfl (by simp)), hw.2⟩
  · refine (spawnFrom_heard y start .subscriber _).mono (fun w hw => hw.1) ?_ fun _ _ => id
    exact fun _ u hu => ⟨hu, by omega, by omega, by omega⟩
  · refine (warmUp_heard y start).mono (fun w hw => hw.1) ?_ fun _ _ => id
    exact fun _ u hu => ⟨hu.1, fun _ => hu.2, by omega, by omega⟩
  · refine .assuming (fun w hw => hw.2) fun hknown => ?_
    refine (spawnFrom_heard y start .publisher _).mono (fun w hw => hw.1) ?_ fun _ _ => id
    exact fun _ u hu => ⟨hu, fun _ => hknown.1 (by omega), by omega, by omega⟩
  · refine .assuming (fun w hw => hw.2) fun hknown => ?_
    refine (joinPublishers_meets (P := fun _ => True)
      (R := fun _ _ => y.patience.graceMargin ≠ none) ?_ ?_).mono ?_ ?_ fun _ _ => id
    · exact fun w grace _ _ _ hgrace _ => by simp [hgrace]
    · exact fun _ _ _ _ hgrace _ _ => hgrace
    · exact fun w hw => ⟨hw.1, trivial⟩
    · intro _ u hyp
      obtain ⟨hu, _, hgrace⟩ := hyp
      exact ⟨hu, fun _ => hknown.1 (by omega), fun _ => hgrace, by omega⟩
  · intro positions
    refine .assuming (fun w hw => hw.1.2) fun hknown => ?_
    refine (askAll_meets (P := fun _ => True) (fun _ _ _ _ _ _ _ => trivial) positions).mono
      (fun w hw => ⟨hw.1.1, trivial, hw.2⟩) ?_ fun _ _ => id
    exact fun _ u hu => ⟨⟨hu.1, fun _ => hknown.1 (by omega), fun _ => hknown.2.1 (by omega),
      by omega⟩, hu.2.2⟩
  · intro positions
    refine .assuming (fun w hw => hw.1.2) fun hknown => ?_
    refine (awaitAll_meets (P := fun _ => True) (R := fun _ _ => y.patience.stopGrace ≠ none)
      ?_ ?_ positions).mono ?_ ?_ fun _ _ => id
    · exact fun w grace _ _ _ hstop _ => by simp [hstop]
    · exact fun _ _ _ _ hstop _ _ => hstop
    · exact fun w hw => ⟨hw.1.1, trivial, hw.2⟩
    · intro _ u hyp
      obtain ⟨hu, _, hstop⟩ := hyp
      exact ⟨hu, fun _ => hknown.1 (by omega), fun _ => hknown.2.1 (by omega), fun _ => hstop⟩

/-- Phases that are not cut have got all that they needed. -/
theorem served_of_uncut (hcut : (atCut y fleet).1 = .ok ()) : Served y :=
  ((phases_served y (atBuild y fleet).2 _ .refl).of_ok hcut).2

/-- Up to where the phases are cut, all that was read was given by the machine. -/
theorem heard_of_cut {f : Fault} (hcut : (atCut y fleet).1 = .error (.fault f)) :
    Heard y.host (atBuild y fleet).2 (atCut y fleet).2 :=
  (phases_served y (atBuild y fleet).2 _ .refl).of_error hcut

/-- When every output can be read, every command line written, and every time waited for, nothing
cuts the phases. -/
theorem uncut_of_legible (hF : y.host.Respects F) (hanswers : y.host.Answers F (Deed.Allowed limits))
    (hpatience : y.patience.Complete) (hold : ∀ r ∈ fleet.records, r.settled = true)
    (hwritable : ∀ role, Writable y role)
    (hlegible : ∀ output, y.host.Gives output → ¬ Misleading (output.getD ""))
    (hallowed : ∀ d ∈ (atCut y fleet).2.trail, d.Plain y → d.Allowed limits) :
    (atCut y fleet).1 = .ok () := by
  cases hcut : (atCut y fleet).1 with
  | ok _ => rfl
  | error stop =>
    cases stop with
    -- no loop of the phases counts fuel
    | outOfFuel => exact absurd hcut (atCut_path hF fleet).2.1
    | fault f =>
      cases ((atCut_healthy hF hold).2 f hcut).cause hanswers hpatience with
      -- what was read was given by the machine, for the build reads nothing
      | @misleading i output _ hread hmisleading =>
        rcases heard_of_cut hcut i output hread with hbuild | hgives
        · exact absurd ((atBuild_records y fleet).2 _ hbuild) id
        · exact absurd hmisleading (hlegible output hgives)
      | unwritable hunwritable => exact absurd (hwritable _) hunwritable
      | refused hd hplain hover _ => exact absurd (hallowed _ hd hplain) hover

end Fleet

end BrokerLoad
