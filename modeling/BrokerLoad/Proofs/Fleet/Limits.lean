import BrokerLoad.Proofs.Fleet.Loops
import BrokerLoad.Proofs.Fleet.Pending

/-!
# Times that a machine can wait for

A machine cannot sleep for every time, nor can it wait for a process with every limit: a time may be
negative, too long, or no time at all. What it does with such a time is its own affair, but it does
not answer. So when the phases of a run are not cut, the machine can wait for all the times that they
have come across.

## Main definitions

* `Limits`: the times that a machine can wait for.
* `Deed.Allowed`: the deeds that keep to some limits.
* `Host.Strict`: a machine that does not answer when they are not kept.

## Main statements

* `Fleet.Joined.allowed`, `Fleet.Requested.allowed`, `Fleet.Stopped.allowed`: rounds that end keep to
  the limits of a strict machine.
* `Fleet.phases_allowed`: so do phases that are not cut.
-/

namespace BrokerLoad

variable {τ σ π α : Type}

/-- The times that a machine can wait for: those of a sleep, of collecting an output, and of waiting
for the end of a process. -/
structure Limits (τ : Type) where
  sleep : τ → Prop
  collect : τ → Prop
  await : τ → Prop

/-- The deeds that keep to some limits. A wait without a time does in any case. -/
def Deed.Allowed (limits : Limits τ) : Deed τ π → Prop
  | .sleep time => limits.sleep time
  | .collect _ (some time) => limits.collect time
  | .await _ (some time) => limits.await time
  | _ => True

theorem Deed.Logs.allowed {limits : Limits τ} {d : Deed τ π} (h : d.Logs) : d.Allowed limits := by
  cases d with
  | log _ | misprint _ => trivial
  | _ => exact absurd h id

/-- No limits at all. -/
def Limits.any : Limits τ := ⟨fun _ => True, fun _ => True, fun _ => True⟩

/-- A machine that does not answer when the limits are not kept. -/
def Host.Strict (h : Host τ σ π) (limits : Limits τ) : Prop :=
  ∀ (d : Deed τ π) (s : σ), (h.perform d s).1 = .ok () → d.Allowed limits

section Strict

variable {h : Host τ σ π} {limits : Limits τ}

/-- Without limits there is nothing that a machine could not answer for. -/
theorem Host.strict_any (h : Host τ σ π) : h.Strict Limits.any := by
  intro d s _
  cases d with
  | collect p limit | await p limit => cases limit <;> trivial
  | _ => trivial

/-- What a strict machine has answered kept to the limits. -/
theorem Host.Strict.answered (hstrict : h.Strict limits) (d : Deed τ π) {s t : σ} {a : α}
    {f : σ → Except Fault α × σ} (hf : ∀ s, h.perform d s = bare (f s))
    (hanswer : f s = (.ok a, t)) : d.Allowed limits := by
  refine hstrict d s ?_
  rw [hf, hanswer]
  rfl

end Strict

namespace Fleet

/-- All deeds so far kept to some limits. -/
def World.Allowed (limits : Limits τ) (w : World τ σ π) : Prop := ∀ d ∈ w.trail, d.Allowed limits

variable {limits : Limits τ} {u v w : World τ σ π}

section World

variable {d : Deed τ π}

@[simp] theorem World.allowed_after (env : σ) :
    (w.after d env).Allowed limits ↔ d.Allowed limits ∧ w.Allowed limits :=
  List.forall_mem_cons

@[simp] theorem World.allowed_noted :
    (w.noted d).Allowed limits ↔ d.Allowed limits ∧ w.Allowed limits :=
  List.forall_mem_cons

@[simp] theorem World.allowed_changed (i : Nat) (f : Record τ π → Record τ π) :
    (w.changed i f).Allowed limits ↔ w.Allowed limits :=
  Iff.rfl

@[simp] theorem World.allowed_enlisted (role : Role) (index : Int) :
    (w.enlisted role index).Allowed limits ↔ w.Allowed limits :=
  List.forall_mem_cons.trans (and_iff_right trivial)

end World

variable [Seconds τ] {y : Yard τ σ π} {p : π} {i : Nat} {deadline : τ} {e : Exit π} {role : Role}
  {fleet : Fleet τ σ π}

/-! ## §1 Rounds -/

/-- Of all that is called while a publisher is waited for, only one wait has a limit. -/
theorem Collected.allowed {found : Option (Option String × ExitCode)}
    (hv : Collected y p deadline w found v) (hstrict : y.host.Strict limits)
    (hw : w.Allowed limits) : v.Allowed limits := by
  have hwaited : ∀ {time : τ} {answer : Option (Option String × ExitCode)} {s t : σ},
      y.host.collectWithin p time s = (.ok answer, t) → limits.collect time :=
    fun {time} _ _ _ => hstrict.answered (.collect p (some time)) fun _ => rfl
  cases hv with
  | ended _ _ => simp [Deed.Allowed, hw]
  | inTime _ _ hcollect | atLast _ _ hcollect _ _ | running _ _ hcollect _ =>
    simp [Deed.Allowed, hw, hwaited hcollect]

theorem Closes.allowed {heard : Option String → Prop} {r : Record τ π}
    (hu : Closes role heard e i r v u) (hv : v.Allowed limits) : u.Allowed limits := by
  obtain ⟨error, before, later, _, htrail, hbefore, hlater⟩ := hu.settled
  have hremarks : ∀ d : Deed τ π, d.Remarks heard → d.Allowed limits := by
    intro d hd
    cases d with
    | log _ | read _ _ => trivial
    | _ => exact absurd hd id
  intro d hd
  simp only [htrail, List.mem_append, List.mem_cons] at hd
  rcases hd with hd | rfl | hd | hd
  · exact hremarks d (hlater d hd)
  · trivial
  · exact hremarks d (hbefore d hd)
  · exact hv d hd

theorem Joined.allowed (hu : Joined y deadline i w u) (hstrict : y.host.Strict limits)
    (hw : w.Allowed limits) : u.Allowed limits := by
  cases hu with
  | passed _ => exact hw
  | closed _ _ _ hparted hcloses =>
    apply hcloses.allowed
    cases hparted with
    | exited hcollected => exact hcollected.allowed hstrict hw
    | killed hrunning _ _ => simp [Deed.Allowed, hrunning.allowed hstrict hw]

theorem Requested.allowed {asked : Bool} (hu : Requested y i w asked u) (hw : w.Allowed limits) :
    u.Allowed limits := by
  cases hu <;> simp [Deed.Allowed, hw]

theorem Stopped.allowed (hu : Stopped y deadline i w u) (hstrict : y.host.Strict limits)
    (hw : w.Allowed limits) : u.Allowed limits := by
  have hwaited : ∀ {p : π} {time : τ} {answer : Option ExitCode} {s t : σ},
      y.host.awaitWithin p time s = (.ok answer, t) → limits.await time :=
    fun {p time} _ _ _ => hstrict.answered (.await p (some time)) fun _ => rfl
  cases hu with
  | passed _ => exact hw
  | closed _ _ _ hreleased hcloses =>
    apply hcloses.allowed
    cases hreleased with
    | exited _ hawait | killed _ hawait _ _ => simp [Deed.Allowed, hw, hwaited hawait]

/-! ## §2 Phases -/

theorem Spawned.allowed {index : Int} (hu : Spawned y role index w u) (hw : w.Allowed limits) :
    u.Allowed limits := by
  cases hu <;> simp [Deed.Allowed, launchDeed, hw]

theorem spawnFrom_allowed (role : Role) (count : Nat) :
    (spawnFrom y role 0 count).Meets (World.Allowed limits) (fun _ => World.Allowed limits)
      (Action.Faulty fun _ _ => True) :=
  spawnFrom_meets y role 0 count (I := fun _ => World.Allowed limits)
    (fun _ _ _ _ _ hw hspawned => hspawned.allowed hw) fun _ _ _ _ _ _ _ _ => trivial

theorem warmUp_allowed (hstrict : y.host.Strict limits) :
    (warmUp y).Meets (World.Allowed limits) (fun _ => World.Allowed limits)
      (Action.Faulty fun _ _ => True) := by
  apply Action.Meets.of_eq
  intro w hw
  refine (warmUp_meets y w).mono (fun _ => id) ?_ (Action.Faulty.mono fun _ _ _ => trivial)
  intro _ u hyp
  obtain ⟨time, env, record, _, hsleep, rfl⟩ := hyp
  have hslept : limits.sleep time := hstrict.answered (.sleep time) (fun _ => rfl) hsleep
  simp [Deed.Allowed, hw, hslept]

/-- Phases that are not cut keep to the limits of a strict machine. -/
theorem phases_allowed (hstrict : y.host.Strict limits) :
    (phases y).Meets (World.Allowed limits) (fun _ => World.Allowed limits)
      (Action.Faulty fun _ _ => True) := by
  -- the clock is looked at before each of the last phases
  have hclocked : ∀ {w : World τ σ π} (env : σ), w.Allowed limits →
      (w.after .readClock env).Allowed limits := fun env hw =>
    (World.allowed_after env).2 ⟨trivial, hw⟩
  refine phases_meets (y := y) (I := fun _ => World.Allowed limits) (E := fun _ _ => True)
    ?_ (spawnFrom_allowed _ _) (warmUp_allowed hstrict) (spawnFrom_allowed _ _) ?_ ?_ ?_
  · exact fun _ w record hw => World.allowed_noted.2 ⟨trivial, hw⟩
  · refine (meets_of_heard fun start => joinPublishers_meets
      (R := fun _ => World.Allowed limits) ?_ ?_).mono (fun _ => id) ?_ fun _ _ => id
    · exact fun w _ _ env hw _ _ => hclocked env hw
    · exact fun _ _ _ _ hw _ hu => hu.allowed hstrict hw
    · exact fun _ u hyp => hyp.elim fun _ hu => hu
  · intro positions
    exact meets_of_heard fun start => askAll_meets (fun _ _ _ _ hw _ hu => hu.allowed hw) positions
  · intro positions
    refine (meets_of_heard fun start => awaitAll_meets
      (R := fun _ => World.Allowed limits) ?_ ?_ positions).mono (fun _ => id) ?_ fun _ _ => id
    · exact fun w _ _ env hw _ _ => hclocked env hw
    · exact fun _ _ _ _ hw _ hu => hu.allowed hstrict hw
    · exact fun _ u hyp => hyp.elim fun _ hu => hu

/-! ## §3 Runs -/

/-- Building waits for nothing, and phases that are not cut have kept to the limits. -/
theorem allowed_atCut (hstrict : y.host.Strict limits) (hcut : (atCut y fleet).1 = .ok ()) :
    (atCut y fleet).2.Allowed limits := by
  have hbuild : (atBuild y fleet).2.Allowed limits := by
    intro d hd
    have hbuilds := (atBuild_records y fleet).2 d hd
    cases d with
    | log _ | compile _ | command _ => trivial
    | _ => exact absurd hbuilds id
  exact (phases_allowed hstrict _ hbuild).of_ok hcut

end Fleet

end BrokerLoad
