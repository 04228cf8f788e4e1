import BrokerLoad.Proofs.Fleet.Account
import BrokerLoad.Proofs.Fleet.Heard
import Mathlib.Algebra.Order.Ring.Rat
import Mathlib.Tactic.Linarith
import Mathlib.Tactic.NormNum

/-!
# How long a run takes

Only sleeping and waiting with a limit take time. The rounds of a phase share one deadline, and every
wait is limited by what is left until then, so the waits of a phase take no longer together than the
longest one may. How many clients hang makes no difference.

## Main definitions

* `Deed.allowance`: the time that a deed may take.
* `Host.Punctual`, `Workshop.Instant`: a machine and a workshop that keep to that.
* `Limits.forward`: the times that a machine has to wait for.

## Main statements

* `Fleet.Joined.within`, `Fleet.Requested.within`, `Fleet.Stopped.within`: a round ends before the
  deadline, or when it began.
* `Fleet.run_within`: a run returns within the warm-up and the two deadlines.
-/

namespace BrokerLoad

variable {σ π : Type}

/-! ## §1 Machines that keep time -/

/-- The time that a deed may take: sleeping takes what it was asked for, and a wait with a limit no
more than that. -/
def Deed.allowance : Deed Rat π → Rat
  | .sleep time => time
  | .collect _ (some limit) | .await _ (some limit) => limit
  | _ => 0

/-- A machine with a clock that shows the time, on which nothing takes longer than it may. What it does
for less than no time is left open. -/
structure Host.Punctual (h : Host Rat σ π) (clock : σ → Rat) : Prop where
  shows : ∀ {s t : σ} {time : Rat}, h.now s = (.ok time, t) → time = clock s
  takes : ∀ (d : Deed Rat π) (s : σ), 0 ≤ d.allowance →
    clock (h.perform d s).2 ≤ clock s + d.allowance

/-- The limits of a machine that can sleep for the warm-up, and wait for any time that is not
negative. -/
def Limits.forward (warmup : Rat) : Limits Rat := ⟨(· = warmup), (0 ≤ ·), (0 ≤ ·)⟩

/-- A workshop in which nothing takes time. -/
structure Workshop.Instant (shop : Workshop σ) (clock : σ → Rat) : Prop where
  compile : ∀ directory s, clock (shop.compile directory s).2 ≤ clock s
  command : ∀ argv s, clock (shop.command argv s).2 ≤ clock s
  isFile : ∀ path s, clock (shop.isFile path s).2 ≤ clock s
  isExecutable : ∀ path s, clock (shop.isExecutable path s).2 ≤ clock s

section Punctual

variable {α : Type} {h : Host Rat σ π} {clock : σ → Rat} {f : σ → Except Fault α × σ} {s t : σ}
  {answer : Except Fault α} {bound : Rat}

theorem Host.Punctual.answered (hclock : h.Punctual clock) (d : Deed Rat π)
    (hd : 0 ≤ d.allowance) (hf : ∀ s, h.perform d s = bare (f s)) (hanswer : f s = (answer, t)) :
    clock t ≤ clock s + d.allowance := by
  have htakes := hclock.takes d s hd
  rw [hf, hanswer] at htakes
  exact htakes

/-- A call that may take no time. -/
theorem Host.Punctual.stays (hclock : h.Punctual clock) (d : Deed Rat π) (hd : d.allowance = 0)
    (hf : ∀ s, h.perform d s = bare (f s)) (hanswer : f s = (answer, t))
    (hs : clock s ≤ bound) : clock t ≤ bound := by
  have hanswered := hclock.answered d hd.ge hf hanswer
  linarith

end Punctual

namespace Fleet

variable {y : Yard Rat σ π} {clock : σ → Rat} {p : π} {i : Nat} {deadline bound : Rat}
  {e : Exit π} {u v w : World Rat σ π}

/-- Waiting for what is left until a deadline ends when the deadline does, or at once. -/
theorem add_remaining_le {time : Rat} (htime : time ≤ bound) (hdeadline : deadline ≤ bound) :
    time + remaining deadline time ≤ bound := by
  show time + (if decide (0 < deadline - time) = true then deadline - time else 0) ≤ bound
  split
  · linarith
  · linarith

theorem Plain.allowed {d : Deed Rat π} {warmup : Rat} (hplain : d.Plain y)
    (hwarmup : y.patience.warmup = some warmup) : d.Allowed (Limits.forward warmup) := by
  cases d with
  | sleep time => exact Option.some.inj (hplain.symm.trans hwarmup)
  | collect p limit | await p limit =>
    cases limit with
    | none => trivial
    | some time => exact Clamped.nonneg hplain
  | _ => trivial

/-! ## §2 Rounds -/

/-- A wait that is limited by what is left, looked up just before. -/
theorem waits_within {α : Type} {f : σ → Except Fault α × σ} {answer : Except Fault α} {q s t : σ}
    {time : Rat} (hclock : y.host.Punctual clock) (d : Deed Rat π)
    (hd : d.allowance = remaining deadline time) (hf : ∀ s, y.host.perform d s = bare (f s))
    (hnow : y.host.now q = (.ok time, s)) (hanswer : f s = (answer, t))
    (hdeadline : deadline ≤ bound) (hq : clock q ≤ bound) : clock t ≤ bound := by
  have hread : clock s ≤ clock q := hclock.stays .readClock rfl (fun _ => rfl) hnow (le_refl _)
  have hwaited : clock t ≤ clock s + remaining deadline time :=
    hd ▸ hclock.answered d (hd ▸ remaining_nonneg deadline time) hf hanswer
  have hleft : clock q + remaining deadline time ≤ bound := by
    rw [hclock.shows hnow]
    exact add_remaining_le hq hdeadline
  linarith

theorem Collected.within {found : Option (Option String × ExitCode)}
    (hv : Collected y p deadline w found v) (hclock : y.host.Punctual clock)
    (hdeadline : deadline ≤ bound) (hw : clock w.state.env ≤ bound) :
    clock v.state.env ≤ bound := by
  -- whatever else is called besides the wait takes no time
  cases hv with
  | ended hpoll hcollect =>
    have hpolled := hclock.stays (.poll p) rfl (fun _ => rfl) hpoll hw
    exact hclock.stays (.collect p none) rfl (fun _ => rfl) hcollect hpolled
  | inTime hpoll hnow hcollect =>
    have hpolled := hclock.stays (.poll p) rfl (fun _ => rfl) hpoll hw
    exact waits_within hclock (.collect p (some _)) rfl (fun _ => rfl) hnow hcollect hdeadline hpolled
  | atLast hpoll hnow hcollect hpoll' hcollect' =>
    have hpolled := hclock.stays (.poll p) rfl (fun _ => rfl) hpoll hw
    have hwaited := waits_within hclock (.collect p (some _)) rfl (fun _ => rfl) hnow hcollect
      hdeadline hpolled
    have hpolled' := hclock.stays (.poll p) rfl (fun _ => rfl) hpoll' hwaited
    exact hclock.stays (.collect p none) rfl (fun _ => rfl) hcollect' hpolled'
  | running hpoll hnow hcollect hpoll' =>
    have hpolled := hclock.stays (.poll p) rfl (fun _ => rfl) hpoll hw
    have hwaited := waits_within hclock (.collect p (some _)) rfl (fun _ => rfl) hnow hcollect
      hdeadline hpolled
    exact hclock.stays (.poll p) rfl (fun _ => rfl) hpoll' hwaited

/-- A round of waiting for publishers ends before the deadline, or when it began. -/
theorem Joined.within (hu : Joined y deadline i w u) (hclock : y.host.Punctual clock)
    (hdeadline : deadline ≤ bound) (hw : clock w.state.env ≤ bound) :
    clock u.state.env ≤ bound := by
  cases hu with
  | passed _ => exact hw
  | closed _ _ _ hparted hcloses =>
    rw [hcloses.env]
    cases hparted with
    | exited hcollected => exact hcollected.within hclock hdeadline hw
    | killed hrunning hkill hcollect =>
      have hover := hrunning.within hclock hdeadline hw
      have hkilled := hclock.stays (.kill _) rfl (fun _ => rfl) hkill hover
      exact hclock.stays (.collect _ none) rfl (fun _ => rfl) hcollect hkilled

/-- A request to stop takes no time. -/
theorem Requested.within {asked : Bool} (hu : Requested y i w asked u)
    (hclock : y.host.Punctual clock) (hw : clock w.state.env ≤ bound) :
    clock u.state.env ≤ bound := by
  cases hu with
  | passed _ => exact hw
  | spared _ hpoll => exact hclock.stays (.poll _) rfl (fun _ => rfl) hpoll hw
  | asked _ hpoll hterminate | gone _ hpoll hterminate _ =>
    have hpolled := hclock.stays (.poll _) rfl (fun _ => rfl) hpoll hw
    exact hclock.stays (.terminate _) rfl (fun _ => rfl) hterminate hpolled

/-- A round of waiting for subscribers ends before the deadline, or when it began. -/
theorem Stopped.within (hu : Stopped y deadline i w u) (hclock : y.host.Punctual clock)
    (hdeadline : deadline ≤ bound) (hw : clock w.state.env ≤ bound) :
    clock u.state.env ≤ bound := by
  cases hu with
  | passed _ => exact hw
  | closed _ _ _ hreleased hcloses =>
    rw [hcloses.env]
    cases hreleased with
    | exited hnow hawait =>
      exact waits_within hclock (.await _ (some _)) rfl (fun _ => rfl) hnow hawait hdeadline hw
    | killed hnow hawait hkill hawait' =>
      have hover := waits_within hclock (.await _ (some _)) rfl (fun _ => rfl) hnow hawait hdeadline
        hw
      have hkilled := hclock.stays (.kill _) rfl (fun _ => rfl) hkill hover
      exact hclock.stays (.await _ none) rfl (fun _ => rfl) hawait' hkilled

/-! ## §3 Phases -/

/-- A start takes no time. -/
theorem Spawned.within {role : Role} {index : Int} (hu : Spawned y role index w u)
    (hclock : y.host.Punctual clock) (hw : clock w.state.env ≤ bound) :
    clock u.state.env ≤ bound := by
  cases hu with
  | launched _ hanswer | refused _ hanswer _ =>
    exact hclock.stays (launchDeed y role) rfl (fun _ => rfl) hanswer hw

theorem spawnFrom_within (hclock : y.host.Punctual clock) (role : Role) (count : Nat) :
    (spawnFrom y role 0 count).Meets (fun w => clock w.state.env ≤ bound)
      (fun _ u => clock u.state.env ≤ bound) (Action.Faulty fun _ _ => True) :=
  spawnFrom_meets y role 0 count (I := fun _ w => clock w.state.env ≤ bound)
    (fun _ _ _ _ _ hw hspawned => hspawned.within hclock hw) fun _ _ _ _ _ _ _ _ => trivial

theorem warmUp_within (hclock : y.host.Punctual clock) {warmup : Rat} (hforward : 0 ≤ warmup)
    (hwarmup : y.patience.warmup = some warmup) :
    (warmUp y).Meets (fun w => clock w.state.env ≤ bound)
      (fun _ u => clock u.state.env ≤ bound + warmup) (Action.Faulty fun _ _ => True) := by
  apply Action.Meets.of_eq
  intro w hw
  refine (warmUp_meets y w).mono (fun _ => id) ?_ (Action.Faulty.mono fun _ _ _ => trivial)
  intro _ u hyp
  obtain ⟨time, env, record, htime, hsleep, rfl⟩ := hyp
  obtain rfl : warmup = time := Option.some.inj (hwarmup.symm.trans htime)
  have hclocked : clock env ≤ clock w.state.env + warmup :=
    hclock.answered (.sleep warmup) hforward (fun _ => rfl) hsleep
  rw [World.after_env]
  linarith

theorem joinPublishers_within (hclock : y.host.Punctual clock) {grace : Rat}
    (hgrace : y.patience.graceMargin = some grace) :
    (joinPublishers y).Meets (fun w => clock w.state.env ≤ bound)
      (fun _ u => clock u.state.env ≤ bound + max 0 (y.plan.duration + grace))
      (Action.Faulty fun _ _ => True) := by
  -- neither the deadline nor the clock gets over the bound of the phase
  refine (meets_of_heard fun start => joinPublishers_meets
    (R := fun deadline u => deadline ≤ bound + max 0 (y.plan.duration + grace) ∧
      clock u.state.env ≤ bound + max 0 (y.plan.duration + grace)) ?_ ?_).mono
        (fun _ => id) ?_ fun _ _ => id
  · intro w grace' time env hw hgrace' hnow
    obtain rfl : grace = grace' := Option.some.inj (hgrace.symm.trans hgrace')
    have hread : clock env ≤ bound := hclock.stays .readClock rfl (fun _ => rfl) hnow hw
    rw [hclock.shows hnow]
    constructor
    · exact add_le_add hw (le_max_right _ _)
    · exact le_add_of_le_of_nonneg hread (le_max_left _ _)
  · exact fun _ i w u hw _ hu => ⟨hw.1, hu.within hclock hw.1 hw.2⟩
  · intro _ u hyp
    obtain ⟨_, _, hu⟩ := hyp
    exact hu

theorem awaitAll_within (hclock : y.host.Punctual clock) {stop : Rat}
    (hstop : y.patience.stopGrace = some stop) (positions : List Nat) :
    (awaitAll y positions).Meets
      (fun w => clock w.state.env ≤ bound ∧ Lists .subscriber positions w)
      (fun _ u => clock u.state.env ≤ bound + max 0 stop) (Action.Faulty fun _ _ => True) := by
  refine (meets_of_heard fun start => awaitAll_meets
    (R := fun deadline u => deadline ≤ bound + max 0 stop ∧
      clock u.state.env ≤ bound + max 0 stop) ?_ ?_ positions).mono (fun _ => id) ?_ fun _ _ => id
  · intro w grace time env hw hgrace hnow
    obtain rfl : stop = grace := Option.some.inj (hstop.symm.trans hgrace)
    have hread : clock env ≤ bound := hclock.stays .readClock rfl (fun _ => rfl) hnow hw
    rw [hclock.shows hnow]
    constructor
    · exact add_le_add hw (le_max_right _ _)
    · exact le_add_of_le_of_nonneg hread (le_max_left _ _)
  · exact fun _ i w u hw _ hu => ⟨hw.1, hu.within hclock hw.1 hw.2⟩
  · intro _ u hyp
    obtain ⟨_, _, hu⟩ := hyp
    exact hu

/-- The phases take no longer than the warm-up and the two deadlines together. -/
theorem phases_within (hclock : y.host.Punctual clock) {warmup grace stop : Rat}
    (hforward : 0 ≤ warmup) (hpatience : y.patience = ⟨some warmup, some grace, some stop⟩) :
    (phases y).Meets (fun w => clock w.state.env ≤ bound)
      (fun _ u => clock u.state.env ≤
        bound + warmup + max 0 (y.plan.duration + grace) + max 0 stop)
      (Action.Faulty fun _ _ => True) := by
  have hwarmup : y.patience.warmup = some warmup := by rw [hpatience]
  have hgrace : y.patience.graceMargin = some grace := by rw [hpatience]
  have hstop : y.patience.stopGrace = some stop := by rw [hpatience]
  -- how late it may be before each phase
  have hphases := phases_meets (y := y) (E := fun _ _ => True)
    (I := fun k w => clock w.state.env ≤
      if k ≤ 1 then bound else if k ≤ 3 then bound + warmup
      else if k ≤ 5 then bound + warmup + max 0 (y.plan.duration + grace)
      else bound + warmup + max 0 (y.plan.duration + grace) + max 0 stop)
    ?_ ?_ ?_ ?_ ?_ ?_ ?_
  · exact hphases
  · exact fun _ _ _ => id
  · exact spawnFrom_within hclock .subscriber _
  · exact warmUp_within hclock hforward hwarmup
  · exact spawnFrom_within hclock .publisher _
  · exact joinPublishers_within hclock hgrace
  · intro positions
    refine meets_of_heard fun start => askAll_meets (y := y) ?_ positions
    exact fun i w asked u hw _ hu => hu.within hclock hw
  · exact fun positions => awaitAll_within hclock hstop positions

/-! ## §4 Whole runs -/

variable {F : Fates σ π} {fleet : Fleet Rat σ π}

/-- Making sure that there is a client takes no time. -/
theorem atBuild_within (hshop : y.workshop.Instant clock) (fleet : Fleet Rat σ π) :
    clock (atBuild y fleet).2.state.env ≤ clock fleet.env := by
  have hsteadfast : Build.Steadfast y.workshop
      fun s : Traced (Deed Rat π) σ => clock s.state ≤ clock fleet.env :=
    { noted := fun _ _ _ => id
      compile := fun s directory => (hshop.compile directory s.state).trans
      command := fun s argv => (hshop.command argv s.state).trans
      isFile := fun s path => (hshop.isFile path s.state).trans
      isExecutable := fun s path => (hshop.isExecutable path s.state).trans }
  exact ensureBuilt_keeps hsteadfast { state := fleet } (le_refl _)

/-- A run returns within the warm-up and the two deadlines, however many clients hang, on a machine
that keeps time and answers, though it may refuse to launch a process. The other conditions are that
the warm-up is not negative, that there is a client, that the outputs can be read, and that the
numbers of the command lines can be written. -/
theorem run_within (hclock : y.host.Punctual clock) (hshop : y.workshop.Instant clock)
    (hF : y.host.Respects F) {warmup grace stop : Rat} (hforward : 0 ≤ warmup)
    (hanswers : y.host.Answers F (Deed.Allowed (Limits.forward warmup)))
    (hpatience : y.patience = ⟨some warmup, some grace, some stop⟩)
    (hlegible : ∀ output, y.host.Gives output → ¬ Misleading (output.getD ""))
    (hwritable : ∀ role, Writable y role) (hold : ∀ r ∈ fleet.records, r.settled = true)
    (hbuilt : (ensured y fleet.env).1 = .ok ()) :
    (∃ sum, (atEnd y fleet).1 = .ok sum) ∧
      clock (atEnd y fleet).2.state.env ≤
        clock fleet.env + warmup + max 0 (y.plan.duration + grace) + max 0 stop := by
  have hcomplete : y.patience.Complete := by
    rw [hpatience]
    exact ⟨nofun, nofun, nofun⟩
  have hwarmup : y.patience.warmup = some warmup := by rw [hpatience]
  have hbuilt : (atBuild y fleet).1 = .ok () := atBuild_of_ensured hbuilt
  have hphases := phases_within hclock hforward hpatience (atBuild y fleet).2
    (atBuild_within hshop fleet)
  have hcut : (atCut y fleet).1 = .ok () :=
    uncut_of_legible hF hanswers hcomplete hold hwritable hlegible
      fun _ _ hplain => Plain.allowed hplain hwarmup
  have hclocked := hphases.of_ok hcut
  have hreturn := returned_of_uncut hanswers hbuilt hcut
  -- summing up takes no time
  obtain ⟨_, d, _, hworld⟩ := atEnd_of_returned hreturn
  rw [hworld]
  exact ⟨⟨_, hreturn⟩, hclocked⟩

/-- Three publishers and two subscribers that hang hold a run up for sixteen seconds at most. -/
theorem hanging_run_within :
    (∃ sum, (atEnd Bench.hung { env := 0 }).1 = .ok sum) ∧
      (atEnd Bench.hung { env := 0 }).2.state.env ≤ 16 := by
  have hclock : Bench.hanging.Punctual id := by
    constructor
    · intro s t time hnow
      cases hnow
      rfl
    · intro d s _
      cases d with
      | sleep time => exact le_refl _
      | collect p limit | await p limit =>
        cases limit with
        | none => exact le_of_eq (add_zero _).symm
        | some limit => exact le_refl _
      | _ => exact le_of_eq (add_zero _).symm
  have hanswers : Bench.hanging.Answers Fates.blank (Deed.Allowed (Limits.forward 2)) := by
    intro d s f _ _ herror
    cases d with
    | collect p limit | await p limit => cases limit <;> cases herror
    | _ => cases herror
  have hlegible : ∀ output, Bench.hanging.Gives output → ¬ Misleading (output.getD "") := by
    intro output hgives
    -- the machine gives no output at all
    have hnone : output = none := by
      obtain ⟨p, code, ⟨s, t, hgives⟩ | ⟨limit, s, t, hgives⟩⟩ := hgives
      · cases hgives
        rfl
      · cases hgives
    rw [hnone, ← legible_iff (τ := Rat)]
    exact fun f hf => nomatch hf
  have hold : ∀ r ∈ ({ env := 0 } : Fleet Rat Rat Unit).records, r.settled = true :=
    fun r hr => nomatch hr
  obtain ⟨hreturns, hclocked⟩ := run_within (y := Bench.hung) hclock
    ⟨fun _ _ => le_refl _, fun _ _ => le_refl _, fun _ _ => le_refl _, fun _ _ => le_refl _⟩
    Bench.hanging.respects_blank (by norm_num) hanswers rfl hlegible
    (fun role _ => by cases role <;> decide) hold (by rfl)
  refine ⟨hreturns, hclocked.trans ?_⟩
  show (0 : Rat) + 2 + max 0 (1 + 10) + max 0 3 ≤ 16
  norm_num

end Fleet

end BrokerLoad
