import BrokerLoad.Proofs.Fleet.Legible
import BrokerLoad.Proofs.Fleet.Limits

/-!
# Runs that return

On a machine that answers as long as its limits are kept, a run returns whatever its clients do,
except for command lines that cannot be written, outputs that end in a count that cannot be read, and
times that the machine cannot wait for. In these cases a fault leaves the run.

## Main definitions

* `Fleet.Cause`: why a run does not return on such a machine.
* `Fleet.Returnable`: what a run must come across to return.

## Main statements

* `Fleet.Felled.cause`: why the phases are cut on such a machine.
* `Fleet.run_returns_iff`: when a run returns.
-/

namespace BrokerLoad

namespace Fleet

variable {τ σ π : Type} [Seconds τ] {y : Yard τ σ π} {F : Fates σ π} {limits : Limits τ}
  {w u : World τ σ π} {fleet : Fleet τ σ π}

/-! ## §1 Why the phases are cut -/

/-- An output can be read unless it is misleading. -/
theorem legible_iff (output : Option String) :
    Legible τ output ↔ ¬ Misleading (output.getD "") := by
  rw [← findReport_count_error_iff τ]
  exact not_exists.symm

/-- Why a run does not return on a machine that answers as long as its limits are kept: an output
could not be read, a command line could not be written, or the machine was to wait for a time that it
cannot wait for. -/
inductive Cause (limits : Limits τ) (y : Yard τ σ π) (u : World τ σ π) : Fault → Prop where
  | misleading {i : Nat} {output : Option String} {e : ValueError} (hread : .read i output ∈ u.trail)
      (hmisleading : Misleading (output.getD "")) : Cause limits y u (.value e)
  | unwritable {role : Role} (hunwritable : ¬ Writable y role) :
      Cause limits y u (.value .unwritableInteger)
  | refused {d : Deed τ π} {s : σ} {f : Fault} (hd : d ∈ u.trail) (hplain : d.Plain y)
      (hover : ¬ d.Allowed limits) (hraised : (y.host.perform d s).1 = .error f) :
      Cause limits y u f

/-- A cause remains one when more is done. -/
theorem Cause.mono {f : Fault} (h : Cause limits y w f) (htrail : ∀ d ∈ w.trail, d ∈ u.trail) :
    Cause limits y u f := by
  cases h with
  | misleading hread hmisleading => exact .misleading (htrail _ hread) hmisleading
  | unwritable hunwritable => exact .unwritable hunwritable
  | refused hd hplain hover hraised => exact .refused (htrail _ hd) hplain hover hraised

/-- Why the phases are cut on a machine that answers as long as its limits are kept. -/
theorem Felled.cause (hanswers : y.host.Answers F (Deed.Allowed limits))
    (hpatience : y.patience.Complete) {f : Fault} (h : Felled y F f u) : Cause limits y u f := by
  cases h with
  | @step v _ _ hcrewed hfails =>
    cases hfails with
    | @raised d _ env hok hadmits hanswer hhandles =>
      have hraised : (y.host.perform d v.state.env).1 = .error f := congrArg Prod.fst hanswer
      refine .refused (List.mem_cons_self ..) hok (fun hallowed => ?_) hraised
      -- within its limits the machine only refuses, and from a refusal the run goes on
      have hhandled := hanswers d _ f hallowed hadmits hraised
      exact absurd (hhandles.symm.trans hhandled) Bool.false_ne_true
    -- the output was read in the failing step itself
    | @illegible i output _ hcount =>
      obtain ⟨e, rfl⟩ := findReport_error hcount
      refine .misleading (List.mem_cons_self ..) ?_
      exact (findReport_count_error_iff τ _).1 ⟨_, hcount⟩
    | unwritable hok _ => exact absurd hok id
    | lacking hlacks => exact absurd hpatience hlacks
    -- every open record has a process at that time
    | noProcess hr hopen hfree => exact absurd hfree (hcrewed _ _ hr hopen)
  | @start v _ role index _ _ hclients hbalked =>
    cases hbalked with
    | unwritable hnumbers =>
      have hunwritable : ¬ Writable y role := fun hwritable =>
        absurd (hnumbers.symm.trans (hwritable hclients)) Bool.false_ne_true
      exact .unwritable hunwritable
    | @raised _ env hanswer hrefusal =>
      have herror : (y.host.perform (launchDeed y role) v.state.env).1 = .error f := by
        simp only [launchDeed, Host.perform, bare, hanswer]
        rfl
      have hhandled := hanswers (launchDeed y role) v.state.env f trivial ⟨f, by rw [hanswer]⟩ herror
      simp [launchDeed, Deed.handles, hrefusal] at hhandled

/-- On a machine that answers as long as its limits are kept nothing stops the cleanup, which waits
without a limit. -/
theorem atCleanup_of_answers (hF : y.host.Respects F)
    (hanswers : y.host.Answers F (Deed.Allowed limits)) (fleet : Fleet τ σ π) :
    (atCleanup y fleet).1 = .ok () := by
  cases hclosed : (atCleanup y fleet).1 with
  | ok _ => rfl
  | error stop =>
    cases atCleanup_halts hclosed with
    | @kill p s t f hanswer =>
      have herror : (y.host.perform (.kill p) s).1 = .error f := by
        simp only [Host.perform, bare, hanswer]
        rfl
      cases hanswers (.kill p) s f trivial trivial herror
    -- the process was killed before, so it is bound to end
    | @await p r s t f hkilled hanswer =>
      have herror : (y.host.perform (.await p none) s).1 = .error f := by
        simp only [Host.perform, bare, hanswer]
        rfl
      cases hanswers (.await p none) s f trivial (hF.kill hkilled) herror

/-! ## §2 Runs that are not cut -/

/-- A run whose phases are not cut sums up at once. -/
theorem atEnd_of_uncut (hbuilt : (atBuild y fleet).1 = .ok ()) (hcut : (atCut y fleet).1 = .ok ()) :
    atEnd y fleet = Action.runFrom (finish y) (atCut y fleet).2 := by
  have hsettled := (atCut_path y.host.respects_blank fleet).2.2 hcut
  have hclosed : atCleanup y fleet = (.ok (), (atCut y fleet).2) :=
    killUnsettled_of_idle y (idle_of_settled hsettled)
  rw [atEnd_of_built hbuilt, hclosed, hcut]

/-- What a run returns is the summary of its records, and it has logged this in the end. -/
theorem atEnd_of_returned {sum : Summary τ π} (hreturn : (atEnd y fleet).1 = .ok sum) :
    sum = summaryOf y (atCut y fleet).2 ∧
      ∃ d, d.Logs ∧ (atEnd y fleet).2 = (atCut y fleet).2.noted d := by
  obtain ⟨hbuilt, hcut⟩ := uncut_of_returned hreturn
  rw [atEnd_of_uncut hbuilt hcut] at hreturn ⊢
  obtain ⟨d, hd, hfinish | ⟨f, s, _, hfinish⟩⟩ := finish_run y (atCut y fleet).2
  · rw [hfinish] at hreturn ⊢
    exact ⟨(Except.ok.inj hreturn).symm, d, hd, rfl⟩
  · rw [hfinish] at hreturn
    cases hreturn

/-- A run whose phases are not cut returns if the log does not raise. -/
theorem returned_of_uncut (hanswers : y.host.Answers F (Deed.Allowed limits))
    (hbuilt : (atBuild y fleet).1 = .ok ()) (hcut : (atCut y fleet).1 = .ok ()) :
    (atEnd y fleet).1 = .ok (summaryOf y (atCut y fleet).2) := by
  rw [atEnd_of_uncut hbuilt hcut]
  obtain ⟨d, hd, hfinish | ⟨f, s, hraised, _⟩⟩ := finish_run y (atCut y fleet).2
  · rw [hfinish]
  · cases d with
    | log record => cases hanswers (.log record) s f trivial trivial hraised
    | misprint cause => cases hanswers (.misprint cause) s f trivial trivial hraised
    | _ => exact absurd hd id

theorem clear_of_uncut (hold : ∀ r ∈ fleet.records, r.settled = true)
    (hcut : (atCut y fleet).1 = .ok ()) {i : Nat} {output : Option String}
    (hread : .read i output ∈ (atCut y fleet).2.trail) : ¬ Misleading (output.getD "") := by
  obtain ⟨hhealthy, _⟩ := (atCut_healthy y.host.respects_blank hold).1 hcut
  obtain ⟨new, hnew, hclear⟩ := hhealthy.path.trail
  rw [hnew] at hread
  -- the build reads no output, and the phases were not cut by any that they read
  rcases List.mem_append.1 hread with hread | hread
  · exact (legible_iff (τ := τ) output).1 (hclear _ hread)
  · exact absurd ((atBuild_records y fleet).2 _ hread) id

theorem trail_atEnd (hbuilt : (atBuild y fleet).1 = .ok ()) {d : Deed τ π}
    (hd : d ∈ (atCut y fleet).2.trail) : d ∈ (atEnd y fleet).2.trail := by
  obtain ⟨new, hnew, _⟩ := (atCleanup_through y.host.respects_blank fleet).trail
  have hcleanup : d ∈ (atCleanup y fleet).2.trail := hnew ▸ List.mem_append_right _ hd
  rcases atEnd_world hbuilt with hend | ⟨d, _, hend⟩
  · rw [hend]
    exact hcleanup
  · rw [hend]
    exact List.mem_cons_of_mem _ hcleanup

/-! ## §3 When a run returns -/

/-- What a run must come across to return: command lines that can be written, no misleading output,
and only times that the machine can wait for. -/
structure Returnable (limits : Limits τ) (y : Yard τ σ π) (final : World τ σ π) : Prop where
  writable : ∀ role, Writable y role
  clear : ∀ i output, .read i output ∈ final.trail → ¬ Misleading (output.getD "")
  allowed : final.Allowed limits

theorem Cause.not_returnable {f : Fault} (h : Cause limits y u f) : ¬ Returnable limits y u := by
  intro hreturnable
  cases h with
  | misleading hread hmisleading => exact hreturnable.clear _ _ hread hmisleading
  | unwritable hunwritable => exact hunwritable (hreturnable.writable _)
  | refused hd _ hover _ => exact hover (hreturnable.allowed _ hd)

/-- How a run ends: with the summary of its records, which are settled, or with a fault and its
cause. -/
def Concludes (limits : Limits τ) (y : Yard τ σ π) (outcome : Except Stop (Summary τ π))
    (final : World τ σ π) : Prop :=
  (outcome = .ok (summaryOf y final) ∧ Returnable limits y final ∧
    ∀ r ∈ final.state.records, r.settled = true) ∨
  ∃ f, outcome = .error (.fault f) ∧ Cause limits y final f

/-- A run whose phases are not cut returns. -/
theorem concludes_of_uncut (hanswers : y.host.Answers F (Deed.Allowed limits))
    (hstrict : y.host.Strict limits) (hold : ∀ r ∈ fleet.records, r.settled = true)
    (hbuilt : (atBuild y fleet).1 = .ok ()) (hcut : (atCut y fleet).1 = .ok ()) :
    Concludes limits y (atEnd y fleet).1 (atEnd y fleet).2 := by
  obtain ⟨_, hwritable⟩ := (atCut_healthy y.host.respects_blank hold).1 hcut
  have hsettled := (atCut_path y.host.respects_blank fleet).2.2 hcut
  have hreturn := returned_of_uncut hanswers hbuilt hcut
  obtain ⟨_, d, hd, hworld⟩ := atEnd_of_returned hreturn
  rw [hreturn, hworld]
  -- what is logged in the end is no reading of an output
  refine .inl ⟨rfl, ⟨hwritable, fun i output hread => ?_, ?_⟩, fun r hr => ?_⟩
  · rcases List.mem_cons.1 hread with rfl | hread
    · exact absurd hd id
    · exact clear_of_uncut hold hcut hread
  · exact World.allowed_noted.2 ⟨hd.allowed, allowed_atCut hstrict hcut⟩
  · obtain ⟨i, hi⟩ := List.mem_iff_getElem?.1 hr
    exact hsettled r.role i r hi rfl

/-- A run whose phases are cut ends with the fault that cut them. -/
theorem concludes_of_cut (hF : y.host.Respects F) (hanswers : y.host.Answers F (Deed.Allowed limits))
    (hpatience : y.patience.Complete) (hold : ∀ r ∈ fleet.records, r.settled = true)
    (hbuilt : (atBuild y fleet).1 = .ok ()) {stop : Stop}
    (hcut : (atCut y fleet).1 = .error stop) :
    Concludes limits y (atEnd y fleet).1 (atEnd y fleet).2 := by
  have hend : (atEnd y fleet).1 = .error stop :=
    atEnd_passes hbuilt (atCleanup_of_answers hF hanswers fleet) hcut
  cases stop with
  -- no loop of the phases counts fuel
  | outOfFuel => exact absurd hcut (atCut_path hF fleet).2.1
  | fault f =>
    have hcause := ((atCut_healthy hF hold).2 f hcut).cause hanswers hpatience
    exact .inr ⟨f, hend, hcause.mono fun _ => trail_atEnd hbuilt⟩

/-- On a machine that answers exactly as long as its limits are kept, a run returns exactly when all
its command lines can be written, no output is misleading, and the machine can wait for all the times
that it was given. Otherwise it ends with a fault for one of these causes. What it returns has only
settled records. -/
theorem run_returns_iff (hF : y.host.Respects F) (hanswers : y.host.Answers F (Deed.Allowed limits))
    (hstrict : y.host.Strict limits) (hpatience : y.patience.Complete)
    (hold : ∀ r ∈ fleet.records, r.settled = true) (hbuilt : (ensured y fleet.env).1 = .ok ()) :
    ((∃ s, (atEnd y fleet).1 = .ok s) ↔ Returnable limits y (atEnd y fleet).2) ∧
    (∀ stop, (atEnd y fleet).1 = .error stop →
      ∃ f, stop = .fault f ∧ Cause limits y (atEnd y fleet).2 f) ∧
    ∀ s, (atEnd y fleet).1 = .ok s →
      s = summaryOf y (atEnd y fleet).2 ∧ ∀ r ∈ s.records, r.settled = true := by
  have hbuilt : (atBuild y fleet).1 = .ok () := atBuild_of_ensured hbuilt
  have hconcludes : Concludes limits y (atEnd y fleet).1 (atEnd y fleet).2 := by
    cases hcut : (atCut y fleet).1 with
    | ok _ => exact concludes_of_uncut hanswers hstrict hold hbuilt hcut
    | error stop => exact concludes_of_cut hF hanswers hpatience hold hbuilt hcut
  -- it returns and could, or it did not and could not
  rcases hconcludes with ⟨hend, hreturnable, hsettled⟩ | ⟨f, hend, hcause⟩
  · rw [hend]
    refine ⟨iff_of_true ⟨_, rfl⟩ hreturnable, nofun, ?_⟩
    intro _ h
    cases h
    exact ⟨rfl, hsettled⟩
  · rw [hend]
    refine ⟨iff_of_false nofun hcause.not_returnable, ?_, nofun⟩
    intro _ h
    cases h
    exact ⟨f, rfl, hcause⟩

/-- A publisher that writes a superscript for its count ends the run. -/
theorem superscript_count_ends_run :
    (ensured Bench.superscript Bench.fresh.env).1 = .ok () ∧
      ∃ e, (atEnd Bench.superscript Bench.fresh).1 = .error (.fault (.value e)) :=
  ⟨by rfl, _, by rfl⟩

/-- That machine can wait for any time, so that the run comes across something else that it cannot
return from. -/
theorem superscript_not_returnable :
    ¬ Returnable .any Bench.superscript (atEnd Bench.superscript Bench.fresh).2 := by
  have hF : Bench.superscript.host.Respects Bench.fates := Bench.respects (.ok ()) (.ok ()) _
  have hanswers : Bench.superscript.host.Answers Bench.fates (Deed.Allowed .any) := by
    intro d s f _ _ herror
    cases (Bench.answers _ d s).symm.trans herror
  have hpatience : Bench.superscript.patience.Complete := ⟨nofun, nofun, nofun⟩
  have hnone : ∀ r ∈ Bench.fresh.records, r.settled = true := fun r hr => nomatch hr
  intro hreturnable
  -- if it could return it would, but it ends with a value error
  obtain ⟨s, hs⟩ :=
    (run_returns_iff hF hanswers (Host.strict_any _) hpatience hnone (by rfl)).1.2 hreturnable
  have hend : ∃ e, (atEnd Bench.superscript Bench.fresh).1 = .error (.fault (.value e)) :=
    ⟨_, by rfl⟩
  obtain ⟨e, he⟩ := hend
  rw [he] at hs
  cases hs

end Fleet

end BrokerLoad
