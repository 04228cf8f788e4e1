import BrokerLoad.Proofs.Fleet.Bench
import BrokerLoad.Proofs.Fleet.Sweep

/-!
# Records without an outcome

A record is opened before its process is launched. If the launch raises what is no refusal, or if the
command line cannot be written, the run stops between the two, with an open record that has no
process. The cleanup passes over such a record, and so it stays open for good. This is the only way
for a record of a run to stay open.

## Main definitions

* `Fleet.Crewed`: every open record has a process.
* `Fleet.Felled`: how the phases of a run are cut.

## Main statements

* `Fleet.phases_healthy`: the phases keep every open record with a process until they are cut.
* `Fleet.pending_iff_balked`: a record stays open exactly when a start was cut.
-/

namespace BrokerLoad

variable {τ σ π : Type} [Seconds τ]

/-- The deeds of a phase that starts nothing: it sleeps for the warm-up only, and waits with limits
that are never less than none. -/
def Deed.Plain (y : Yard τ σ π) : Deed τ π → Prop
  | .sleep time => y.patience.warmup = some time
  | .collect _ limit | .await _ limit => Clamped limit
  | .enlist _ _ => False
  | _ => True

/-- The deeds of a phase that is not cut. -/
def Deed.Clear : Deed τ π → Prop
  | .read _ output => Legible τ output
  | _ => True

section Deeds

variable {y : Yard τ σ π} {own : π → Prop} {d : Deed τ π}

theorem Deed.Warms.plain (h : d.Warms y) : d.Plain y := by
  cases d with
  | sleep _ => exact h
  | enlist _ _ | collect _ _ | await _ _ => exact absurd h id
  | _ => trivial

theorem Deed.Warms.clear (h : d.Warms y) : d.Clear := by
  cases d with
  | read _ _ => exact absurd h id
  | _ => trivial

theorem Deed.Starts.clear {role : Role} {count : Nat} (h : d.Starts y role count) : d.Clear := by
  cases d with
  | read _ _ => exact absurd h id
  | _ => trivial

theorem Deed.Joins.plain (h : d.Joins own) : d.Plain y := by
  cases d with
  | collect _ _ => exact h.2
  | sleep _ | enlist _ _ | await _ _ => exact absurd h id
  | _ => trivial

theorem Deed.Joins.clear (h : d.Joins own) : d.Clear := by
  cases d with
  | read _ _ => exact h
  | _ => trivial

theorem Deed.Asks.plain (h : d.Asks own) : d.Plain y := by
  cases d with
  | sleep _ | enlist _ _ | collect _ _ | await _ _ => exact absurd h id
  | _ => trivial

theorem Deed.Asks.clear (h : d.Asks own) : d.Clear := by
  cases d with
  | read _ _ => exact absurd h id
  | _ => trivial

theorem Deed.Waits.plain (h : d.Waits own) : d.Plain y := by
  cases d with
  | await _ _ => exact h.2
  | sleep _ | enlist _ _ | collect _ _ => exact absurd h id
  | _ => trivial

theorem Deed.Waits.clear (h : d.Waits own) : d.Clear := by
  cases d with
  | read _ _ => exact absurd h id
  | _ => trivial

end Deeds

namespace Fleet

/-! ## §1 Open records and their processes -/

/-- Every open record has a process. -/
def Crewed (w : World τ σ π) : Prop :=
  ∀ i r, w.record? i = some r → r.settled = false → r.process ≠ none

variable {y : Yard τ σ π} {F : Fates σ π} {ok : Deed τ π → Prop} {u v w : World τ σ π}
  {role : Role} {index : Int}

/-- Without new records every open record keeps its process. -/
theorem lasting_crewed (hno : ∀ role index, ¬ ok (.enlist role index)) :
    Lasting y F ok (Crewed (τ := τ) (σ := σ) (π := π)) := by
  intro u v hpath hu i s hs hopen
  obtain ⟨r, hr, hkeeps⟩ := hpath.back hno hs
  have hropen : r.settled = false := hkeeps.unsettled hopen
  -- an open record was open before, and keeps the process that it had then
  cases hprocess : r.process with
  | none => exact absurd hprocess (hu i r hr hropen)
  | some p =>
    rw [hkeeps.process p hprocess]
    exact nofun

omit [Seconds τ] in
theorem crewed_of_settled (h : ∀ r ∈ w.state.records, r.settled = true) : Crewed w := by
  intro i r hr hopen
  exact absurd (hopen.symm.trans (h r (List.mem_of_getElem? hr))) Bool.false_ne_true

/-- The record of a client that was started has a process, and that of a refused one is settled. -/
theorem Spawned.crewed (h : Spawned y role index w u) (hw : Crewed w) : Crewed u := by
  cases h with
  -- its own record has the process, the others are as they were
  | @launched p env record _ _ =>
    intro i s hs hopen
    rcases World.record?_changed_cases _ _ _ _ hs with ⟨hne, hs⟩ | ⟨_, r, _, rfl⟩
    · rcases World.record?_opened_cases _ _ _ hs with hs | ⟨hi, _⟩
      · exact hw i s hs hopen
      · exact absurd hi.symm hne
    · exact nofun
  -- its own record is settled, the others are as they were
  | @refused f env record reason _ _ _ =>
    intro i s hs hopen
    rcases World.record?_changed_cases _ _ _ _ hs with ⟨hne, hs⟩ | ⟨_, r, _, rfl⟩
    · rcases World.record?_opened_cases _ _ _ hs with hs | ⟨hi, _⟩
      · exact hw i s hs hopen
      · exact absurd hi.symm hne
    · rw [r.settled_settle (by simp)] at hopen
      cases hopen

/-- A start that stops the run leaves one record more, as it was opened. -/
theorem Balked.records {f : Fault} (h : Balked y role index w f u) :
    u.state.records = w.state.records ++ [({ role, index } : Record τ π)] := by
  cases h <;> rfl

theorem Spawned.writable (h : Spawned y role index w u) :
    (commandNumbers y role).all isWritable = true := by
  cases h <;> assumption

/-! ## §2 The phases -/

/-- How many clients of a role a run starts. -/
def clients (y : Yard τ σ π) : Role → Nat
  | .publisher => y.plan.publishers
  | .subscriber => y.plan.subscribers

/-- The command line of a client can be written, if there are any of its role. -/
def Writable (y : Yard τ σ π) (role : Role) : Prop :=
  0 < clients y role → (commandNumbers y role).all isWritable = true

/-- How the phases of a run are cut: by a failing step when every open record has a process, or by a
start. -/
inductive Felled (y : Yard τ σ π) (F : Fates σ π) : Fault → World τ σ π → Prop where
  | step {v u : World τ σ π} {f : Fault} (hcrewed : Crewed v)
      (hfails : Fails y F (Deed.Plain y) v f u) : Felled y F f u
  | start {v u : World τ σ π} {role : Role} {index : Int} {f : Fault} (hcrewed : Crewed v)
      (hclients : 0 < clients y role) (hbalked : Balked y role index v f u) : Felled y F f u

/-- A run from `w` that was not cut so far. -/
structure Healthy (y : Yard τ σ π) (F : Fates σ π) (w u : World τ σ π) : Prop where
  crewed : Crewed u
  path : Path y.host F Deed.Clear w u

theorem Goes.healthy {a : Act τ σ π Unit} {ok : World τ σ π → Deed τ π → Prop}
    {P R : World τ σ π → Prop} {Q : World τ σ π → Unit → World τ σ π → Prop}
    (hgoes : ∀ v, P v → Goes y F (ok v) (· = v) a (Q v)) (hplain : ∀ v d, ok v d → d.Plain y)
    (hclear : ∀ v d, ok v d → d.Clear) (hR : ∀ v u, P v → Q v () u → R u) :
    a.Meets (fun u => Healthy y F w u ∧ P u) (fun _ u => Healthy y F w u ∧ R u)
      (Action.Faulty (Felled y F)) := by
  apply Goes.meets (fun v hv => hgoes v hv.2)
  · intro v _ u hyp hpath hend
    obtain ⟨hv, hP⟩ := hyp
    -- no record is opened in such a phase
    have hcrewed : Crewed u := lasting_crewed (fun _ _ => hplain v _) v u hpath hv.crewed
    exact ⟨⟨hcrewed, hv.path.trans (hpath.mono (hclear v))⟩, hR v u hP hend⟩
  · intro v f t u hyp hpath hfails
    obtain ⟨hv, _⟩ := hyp
    have hcrewed : Crewed t := lasting_crewed (fun _ _ => hplain v _) v t hpath hv.crewed
    exact .step hcrewed (hfails.mono (hplain v))

theorem spawnFrom_healthy (y : Yard τ σ π) (F : Fates σ π) (role : Role) (w : World τ σ π) :
    (spawnFrom y role 0 (clients y role)).Meets (Healthy y F w)
      (fun _ u => Healthy y F w u ∧ Writable y role) (Action.Faulty (Felled y F)) := by
  -- the invariant of the loop: as soon as one client was started, its numbers could be written
  refine (spawnFrom_meets y role 0 (clients y role)
    (I := fun k u => Healthy y F w u ∧ (0 < k → (commandNumbers y role).all isWritable = true))
    (E := Felled y F) ?_ ?_).mono ?_ ?_ fun _ _ => id
  · intro k v u _ hk hyp hspawned
    obtain ⟨hv, _⟩ := hyp
    have hpath : Path y.host F (Deed.Starts y role (clients y role)) v u :=
      hspawned.path (by omega)
    refine ⟨⟨hspawned.crewed hv.crewed, hv.path.trans (hpath.mono ?_)⟩, fun _ => hspawned.writable⟩
    exact fun _ => Deed.Starts.clear
  · intro k v f u _ hk hyp hbalked
    obtain ⟨hv, _⟩ := hyp
    exact .start hv.crewed (by omega) hbalked
  · exact fun u hu => ⟨hu, fun h => absurd h (Nat.lt_irrefl 0)⟩
  · intro _ u h
    obtain ⟨hu, hnumbers⟩ := h
    rw [Nat.zero_add] at hnumbers
    exact ⟨hu, hnumbers⟩

theorem askAll_healthy (hF : y.host.Respects F) (w : World τ σ π) (positions : List Nat) :
    (askAll y positions).Meets
      (fun u => Healthy y F w u ∧ Lists .subscriber positions u)
      (fun _ u => Healthy y F w u ∧ Lists .subscriber positions u) (Action.Faulty (Felled y F)) :=
  Goes.healthy (fun v hlists => askAll_goes hF v hlists) (fun _ _ => Deed.Asks.plain)
    (fun _ _ => Deed.Asks.clear) fun _ _ _ hlists => hlists

theorem awaitAll_healthy (hF : y.host.Respects F) (w : World τ σ π) (positions : List Nat) :
    (awaitAll y positions).Meets
      (fun u => Healthy y F w u ∧ Lists .subscriber positions u)
      (fun _ => Healthy y F w) (Action.Faulty (Felled y F)) := by
  have hawait := Goes.healthy (w := w) (R := fun _ => True)
    (fun v (hlists : Lists .subscriber positions v) => awaitAll_goes hF v hlists)
    (fun _ _ => Deed.Waits.plain) (fun _ _ => Deed.Waits.clear) fun _ _ _ _ => trivial
  exact hawait.mono (fun _ => id) (fun _ _ hu => hu.1) fun _ _ => id

/-- The phases keep every open record with a process until they are cut, and when they are not, every
command line could be written and every output read. -/
theorem phases_healthy (hF : y.host.Respects F) (hw : Crewed w) :
    (phases y).Meets (· = w) (fun _ u => Healthy y F w u ∧ ∀ role, Writable y role)
      (Action.Faulty (Felled y F)) := by
  have hphases := phases_meets (y := y)
    (I := fun k u => Healthy y F w u ∧ (1 ≤ k → Writable y .subscriber) ∧
      (3 ≤ k → Writable y .publisher))
    (E := Felled y F) ?_ ?_ ?_ ?_ ?_ ?_ ?_
  · refine hphases.mono ?_ ?_ fun _ _ => id
    · intro u heq
      subst heq
      exact ⟨⟨hw, .refl⟩, by omega, by omega⟩
    · intro _ u h
      obtain ⟨hu, hsubscriber, hpublisher⟩ := h
      refine ⟨hu, fun role => ?_⟩
      cases role with
      | publisher => exact hpublisher (by omega)
      | subscriber => exact hsubscriber (by omega)
  · exact fun k v record hv => ⟨⟨hv.1.crewed, hv.1.path.tail (.log trivial)⟩, hv.2⟩
  -- the subscribers
  · refine (spawnFrom_healthy y F .subscriber w).mono (fun u hu => hu.1) ?_ fun _ _ => id
    exact fun _ u hu => ⟨hu.1, fun _ => hu.2, by omega⟩
  -- warming up
  · refine Goes.healthy (fun v _ => (warmUp_goes y F).pre fun _ _ => trivial)
      (fun _ _ => Deed.Warms.plain) (fun _ _ => Deed.Warms.clear) ?_
    exact fun v u hv _ => ⟨fun _ => hv.1 (by omega), by omega⟩
  -- the publishers
  · apply Action.Meets.of_eq
    intro v hv
    refine (spawnFrom_healthy y F .publisher w).mono ?_ ?_ fun _ _ => id
    · intro u heq
      subst heq
      exact hv.1
    · exact fun _ u hu => ⟨hu.1, fun _ => hv.2.1 (by omega), fun _ => hu.2⟩
  -- waiting for the publishers
  · refine Goes.healthy (fun v _ => joinPublishers_goes hF v) (fun _ _ => Deed.Joins.plain)
      (fun _ _ => Deed.Joins.clear) ?_
    exact fun v u hv _ => ⟨fun _ => hv.1 (by omega), fun _ => hv.2 (by omega)⟩
  -- asking the subscribers to stop
  · intro positions
    apply Action.Meets.of_eq
    intro v hv
    refine (askAll_healthy hF w positions).mono ?_ ?_ fun _ _ => id
    · intro u heq
      subst heq
      exact ⟨hv.1.1, hv.2⟩
    · exact fun _ u hu => ⟨⟨hu.1, fun _ => hv.1.2.1 (by omega), fun _ => hv.1.2.2 (by omega)⟩, hu.2⟩
  -- waiting for the subscribers
  · intro positions
    apply Action.Meets.of_eq
    intro v hv
    refine (awaitAll_healthy hF w positions).mono ?_ ?_ fun _ _ => id
    · intro u heq
      subst heq
      exact ⟨hv.1.1, hv.2⟩
    · exact fun _ u hu => ⟨hu, fun _ => hv.1.2.1 (by omega), fun _ => hv.1.2.2 (by omega)⟩

/-! ## §3 What stays open -/

variable {fleet : Fleet τ σ π}

theorem atCut_healthy (hF : y.host.Respects F) (hold : ∀ r ∈ fleet.records, r.settled = true) :
    ((atCut y fleet).1 = .ok () →
      Healthy y F (atBuild y fleet).2 (atCut y fleet).2 ∧ ∀ role, Writable y role) ∧
    ∀ f, (atCut y fleet).1 = .error (.fault f) → Felled y F f (atCut y fleet).2 := by
  have hcrewed : Crewed (atBuild y fleet).2 := by
    apply crewed_of_settled
    rw [(atBuild_records y fleet).1]
    exact hold
  have hphases := phases_healthy hF hcrewed _ rfl
  exact ⟨fun hok => hphases.of_ok hok, fun f hf => hphases.of_error hf⟩

/-- What is open in the end is what was open without a process when the phases ended. -/
theorem open_atEnd_iff (hbuilt : (atBuild y fleet).1 = .ok ())
    (hclean : (atCleanup y fleet).1 = .ok ()) {i : Nat} {r : Record τ π} :
    ((atEnd y fleet).2.record? i = some r ∧ r.settled = false) ↔
      (atCut y fleet).2.record? i = some r ∧ r.settled = false ∧ r.process = none := by
  have hswept := atCleanup_swept hclean
  -- summing up changes no record
  have hend : (atEnd y fleet).2.record? i = (atCleanup y fleet).2.record? i := by
    rcases atEnd_world hbuilt with hend | ⟨d, _, hend⟩ <;> rw [hend]
    rfl
  rw [hend]
  constructor
  · intro h
    obtain ⟨hr, hopen⟩ := h
    have hlt : i < (atCut y fleet).2.state.records.length :=
      hswept.length ▸ World.lt_of_record? hr
    obtain ⟨s, hs, hsweeps⟩ := hswept.records i _ (List.getElem?_eq_getElem hlt)
    obtain rfl : r = s := Option.some.inj (hr.symm.trans hs)
    rw [if_pos hlt] at hsweeps
    generalize hold : (atCut y fleet).2.state.records[i] = old at hsweeps
    cases hsweeps with
    -- a record that was killed for is settled
    | aborted _ _ _ => cases hopen
    | kept hidle =>
      refine ⟨?_, hopen, ?_⟩
      · rw [← hold]
        exact List.getElem?_eq_getElem hlt
      · rcases hidle with hsettled | hfree
        · exact absurd (hopen.symm.trans hsettled) Bool.false_ne_true
        · exact hfree
  · intro h
    obtain ⟨hr, hopen, hfree⟩ := h
    obtain ⟨s, hs, hsweeps⟩ := hswept.records i r hr
    rw [if_pos (World.lt_of_record? hr)] at hsweeps
    cases hsweeps with
    -- only a record with a process is killed for
    | aborted _ hprocess _ =>
      rw [hfree] at hprocess
      cases hprocess
    | kept _ => exact ⟨hs, hopen⟩

/-- An open record without a process is the last one, and a start was cut after opening it. -/
theorem balked_of_open (hold : ∀ r ∈ fleet.records, r.settled = true) {i : Nat} {r : Record τ π}
    (hr : (atCut y fleet).2.record? i = some r) (hopen : r.settled = false)
    (hfree : r.process = none) :
    (∃ role index w f, (atCut y fleet).1 = .error (.fault f) ∧
      Balked y role index w f (atCut y fleet).2) ∧
    i + 1 = (atCut y fleet).2.state.records.length := by
  obtain ⟨hok, hfelled⟩ := atCut_healthy y.host.respects_blank hold
  cases hcut : (atCut y fleet).1 with
  -- nothing cut the phases: every open record has a process
  | ok _ => exact absurd hfree ((hok hcut).1.crewed i r hr hopen)
  | error stop =>
    cases stop with
    | outOfFuel => exact absurd hcut (atCut_path y.host.respects_blank fleet).2.1
    | fault f =>
      generalize hworld : (atCut y fleet).2 = cut at hr
      have hwhy := hworld ▸ hfelled f hcut
      cases hwhy with
      -- a failing step changes no record, so there was none before it either
      | @step v _ _ hcrewed hfails =>
        rw [World.record?_congr hfails.records] at hr
        exact absurd hfree (hcrewed i r hr hopen)
      | @start v _ role index _ hcrewed _ hbalked =>
        refine ⟨⟨role, index, v, f, rfl, hbalked⟩, ?_⟩
        have hlt : i < cut.state.records.length := World.lt_of_record? hr
        rw [hbalked.records, List.length_append, List.length_singleton] at hlt ⊢
        -- before the start every open record had a process
        by_cases hi : i < v.state.records.length
        · have hv : v.record? i = some r := by
            rw [World.record?, hbalked.records, List.getElem?_append_left hi] at hr
            exact hr
          exact absurd hfree (hcrewed i r hv hopen)
        · omega

/-- A record stays open exactly when a start was cut, by a fault of the launcher that is no refusal
or because the command line cannot be written. It is the last record, and has no process. -/
theorem pending_iff_balked (hold : ∀ r ∈ fleet.records, r.settled = true)
    (hbuilt : (atBuild y fleet).1 = .ok ()) (hclean : (atCleanup y fleet).1 = .ok ()) :
    ((∃ i r, (atEnd y fleet).2.record? i = some r ∧ r.settled = false) ↔
      ∃ role index w f, (atCut y fleet).1 = .error (.fault f) ∧
        Balked y role index w f (atCut y fleet).2) ∧
    ∀ i r, (atEnd y fleet).2.record? i = some r → r.settled = false →
      r.process = none ∧ i + 1 = (atEnd y fleet).2.state.records.length := by
  have hlength : (atEnd y fleet).2.state.records.length = (atCut y fleet).2.state.records.length := by
    rw [← (atCleanup_swept hclean).length]
    rcases atEnd_world hbuilt with hend | ⟨d, _, hend⟩ <;> rw [hend]
    rfl
  refine ⟨⟨?_, ?_⟩, ?_⟩
  · intro h
    obtain ⟨i, r, hr⟩ := h
    obtain ⟨hcut, hopen, hfree⟩ := (open_atEnd_iff hbuilt hclean).1 hr
    exact (balked_of_open hold hcut hopen hfree).1
  · intro h
    obtain ⟨role, index, w, f, _, hbalked⟩ := h
    -- the record that the start has opened
    refine ⟨w.state.records.length, { role, index }, ?_⟩
    refine (open_atEnd_iff hbuilt hclean).2 ⟨?_, rfl, rfl⟩
    rw [World.record?, hbalked.records, List.getElem?_concat_length]
  · intro i r hr hopen
    obtain ⟨hcut, _, hfree⟩ := (open_atEnd_iff hbuilt hclean).1 ⟨hr, hopen⟩
    rw [hlength]
    exact ⟨hfree, (balked_of_open hold hcut hopen hfree).2⟩

/-- A publisher whose command line the launcher cannot pass on stays open, though the cleanup is not
stopped. -/
theorem unpassable_stays_open :
    (atBuild Bench.unpassable Bench.fresh).1 = .ok () ∧
      (atCleanup Bench.unpassable Bench.fresh).1 = .ok () ∧
      ∃ r, (atEnd Bench.unpassable Bench.fresh).2.record? 0 = some r ∧ r.status = .pending :=
  ⟨by rfl, by rfl, _, by rfl, by rfl⟩

/-- What cut that run is the start of the publisher. -/
theorem unpassable_is_balked :
    ∃ role index w f, (atCut Bench.unpassable Bench.fresh).1 = .error (.fault f) ∧
      Balked Bench.unpassable role index w f (atCut Bench.unpassable Bench.fresh).2 := by
  have hnone : ∀ r ∈ Bench.fresh.records, r.settled = true := fun r hr => nomatch hr
  exact (pending_iff_balked hnone (by rfl) (by rfl)).1.1 ⟨0, _, by rfl, by rfl⟩

end Fleet

end BrokerLoad
