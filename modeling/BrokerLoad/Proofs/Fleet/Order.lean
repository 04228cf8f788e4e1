import BrokerLoad.Proofs.Fleet.Bench
import BrokerLoad.Proofs.Fleet.Sweep
import BrokerLoad.Proofs.Fleet.Tally

/-!
# The order of a run

Seen from outside, a run makes sure that there is a client, launches the subscribers in order, sleeps
once, launches the publishers in order, deals with the publishers, asks the subscribers to stop, and
waits for them. A run that is cut has done the beginning of this, and then only kills and waits. No
subscriber is asked to stop before the publishers are settled.

## Main definitions

* `Fleet.launches`: the launches of a role.
* `Fleet.Stage`: what each of the six phases does, in full.
* `Fleet.Sofar`: a run on its way through the phases.
* `Fleet.InOrder`: what the outline of a run looks like.

## Main statements

* `Fleet.Sofar.next`, `Fleet.Sofar.cut`: a phase that ends, and one that is cut.
* `Fleet.phases_sofar`: the phases are done one after the other.
* `Fleet.run_in_order`: every run is in order.
-/

namespace BrokerLoad

variable {τ σ π : Type}

/-! ## §1 Outlines of phases -/

/-- Calls on the publishers while they are waited for. -/
def Deed.JoinCall (own : π → Prop) : Deed τ π → Prop
  | .poll p | .collect p _ | .kill p => own p
  | _ => False

/-- Calls on the subscribers while they are asked to stop. -/
def Deed.AskCall (own : π → Prop) : Deed τ π → Prop
  | .poll p | .terminate p => own p
  | _ => False

/-- Calls on the subscribers while they are waited for, and on what is left over. -/
def Deed.WaitCall (own : π → Prop) : Deed τ π → Prop
  | .await p _ | .kill p => own p
  | _ => False

namespace Fleet

section Path

variable {h : Host τ σ π} {F : Fates σ π} {ok : Deed τ π → Prop} {u v w : World τ σ π}

theorem Path.outline (hp : Path h F ok u v) :
    ∃ new, v.outline = u.outline ++ new ∧ ∀ d ∈ new, ok d ∧ d.visible = true := by
  obtain ⟨new, hnew, hall⟩ := hp.trail
  refine ⟨new.reverse.filter Deed.visible, World.outline_append new hnew, fun d hd => ?_⟩
  obtain ⟨hmem, hvisible⟩ := List.mem_filter.1 hd
  exact ⟨hall d (List.mem_reverse.1 hmem), hvisible⟩

theorem Path.mans (hp : Path h F ok u v) {role : Role} {p : π} (hu : u.Mans role p) :
    v.Mans role p := by
  obtain ⟨i, r, hr, hrole, hprocess⟩ := hu
  obtain ⟨s, hs, hkeeps, _⟩ := hp.keeps hr
  exact ⟨i, s, hs, hkeeps.role.trans hrole, hkeeps.process p hprocess⟩

end Path

variable [Seconds τ]

/-- The launches of the first `count` clients of a role, in order. -/
def launches (y : Yard τ σ π) (role : Role) (count : Nat) : List (Deed τ π) :=
  (List.range count).flatMap fun (k : Nat) => [.enlist role (k : Int), launchDeed y role]

variable {y : Yard τ σ π} {role : Role} {u w : World τ σ π}

theorem launches_succ (y : Yard τ σ π) (role : Role) (k : Nat) :
    launches y role (k + 1) = launches y role k ++ [.enlist role k, launchDeed y role] := by
  simp [launches, List.range_succ]

theorem launches_le (y : Yard τ σ π) (role : Role) {k n : Nat} (h : k ≤ n) :
    launches y role k <+: launches y role n := by
  -- induction on how many more launches there are
  induction h with
  | refl => exact List.prefix_rfl
  | step _ ih =>
    rw [launches_succ]
    exact ih.trans (List.prefix_append ..)

/-- A start that does not stop the run opens a record and calls the launcher once. -/
theorem Spawned.outline {index : Int} (h : Spawned y role index w u) :
    u.outline = w.outline ++ [.enlist role index, launchDeed y role] := by
  cases h with
  | @launched p env record _ _ =>
    exact World.outline_append [.log record, launchDeed y role, .enlist role index] rfl
  | @refused f env record reason _ _ _ =>
    exact World.outline_append [.settle _ .failure none (some reason), .log record,
      launchDeed y role, .enlist role index] rfl

/-- A start that stops the run has done the beginning of this. -/
theorem Balked.outline {index : Int} {f : Fault} (h : Balked y role index w f u) :
    ∃ part, part <+: [.enlist role index, launchDeed y role] ∧ u.outline = w.outline ++ part := by
  cases h with
  -- the record was opened, but nothing was launched
  | unwritable _ =>
    exact ⟨[.enlist role index], ⟨[launchDeed y role], rfl⟩, World.outline_of_visible rfl rfl⟩
  -- the call was made, so nothing of the start is missing
  | raised _ _ =>
    exact ⟨_, List.prefix_rfl,
      World.outline_append [launchDeed y role, .enlist role index] rfl⟩

/-- The launches of a role, in order; if one stops the run, the beginning of them. -/
theorem spawnFrom_outline (y : Yard τ σ π) (role : Role) (count : Nat) (w : World τ σ π) :
    (spawnFrom y role 0 count).Meets (· = w)
      (fun _ u => u.outline = w.outline ++ launches y role count)
      (Action.Faulty fun _ u => ∃ part, part <+: launches y role count ∧
        u.outline = w.outline ++ part) := by
  -- the invariant of the loop: the launches of the clients so far
  refine (spawnFrom_meets y role 0 count
    (I := fun k u => u.outline = w.outline ++ launches y role k)
    (E := fun _ u => ∃ part, part <+: launches y role count ∧ u.outline = w.outline ++ part)
    ?_ ?_).mono ?_ ?_ fun _ _ => id
  · intro k v u _ _ hv hspawned
    rw [hspawned.outline, hv, List.append_assoc, launches_succ]
  · intro k v f u _ hk hv hbalked
    obtain ⟨part, hpart, hu⟩ := hbalked.outline
    refine ⟨launches y role k ++ part, ?_, by rw [hu, hv, List.append_assoc]⟩
    -- the launches so far with a part of the next one are a part of all launches
    have hnext : launches y role k ++ part <+: launches y role (k + 1) := by
      rw [launches_succ]
      exact (List.prefix_append_right_inj _).2 hpart
    exact hnext.trans (launches_le y role (by omega))
  · intro u heq
    subst heq
    simp [launches]
  · intro _ u hu
    rwa [Nat.zero_add] at hu

/-! ## §2 Requests to stop -/

/-- Nobody was asked to stop. -/
def World.Unasked (w : World τ σ π) : Prop := ∀ p, Deed.terminate p ∉ w.trail

/-- Requests to stop come after the publishers are settled, if there are any. The `old` records were
settled before the run. -/
def Asked (y : Yard τ σ π) (F : Fates σ π) (old : Nat → Prop) (u : World τ σ π) : Prop :=
  u.Unasked ∨ ∃ v, v.Unasked ∧ v.Settled .publisher ∧ Tally old v ∧
    Path y.host F (fun d => ∀ role index, d ≠ .enlist role index) v u

section Asked

variable {F : Fates σ π} {ok : Deed τ π → Prop} {old : Nat → Prop} {v : World τ σ π}

theorem Path.unasked (hno : ∀ p, ¬ ok (.terminate p)) (hp : Path y.host F ok u v)
    (hu : u.Unasked) : v.Unasked := by
  obtain ⟨new, hnew, hall⟩ := hp.trail
  intro p hmem
  rw [hnew] at hmem
  -- a request would be one of the new deeds or one of the old
  rcases List.mem_append.1 hmem with hmem | hmem
  · exact hno p (hall _ hmem)
  · exact hu p hmem

/-- Deeds that neither open a record nor ask anybody to stop do not matter. -/
theorem Asked.along (hopens : ∀ role index, ¬ ok (.enlist role index))
    (hasks : ∀ p, ¬ ok (.terminate p)) (hp : Path y.host F ok u v) (hu : Asked y F old u) :
    Asked y F old v := by
  -- if somebody was asked before, the publishers had been settled by then
  rcases hu with hu | ⟨t, hunasked, hsettled, htally, ht⟩
  · exact .inl (hp.unasked hasks hu)
  · refine .inr ⟨t, hunasked, hsettled, htally, ht.trans (hp.mono ?_)⟩
    intro d hd role index heq
    subst heq
    exact hopens role index hd

/-- Before a request to stop every publisher was settled, and has kept its outcome since. -/
theorem Asked.heeded (hu : Asked y F old u) {before after : List (Deed τ π)} {p : π}
    (hsplit : u.history = before ++ .terminate p :: after) {i : Nat} {r : Record τ π}
    (hi : ¬ old i) (hr : u.record? i = some r) (hrole : r.role = .publisher) :
    r.settled = true ∧ r.outcome ∈ Deed.settlements i before := by
  have htrail : u.trail = after.reverse ++ .terminate p :: before.reverse := by
    have hreverse := congrArg List.reverse hsplit
    simpa [Traced.history] using hreverse
  -- there was a request, so there is a world before it in which the publishers were settled
  rcases hu with hu | ⟨v, hunasked, hsettled, htally, hpath⟩
  · exact absurd (htrail ▸ List.mem_append_right _ (List.mem_cons_self ..)) (hu p)
  · have hno : ∀ role index, ¬ ∀ role' index', (Deed.enlist role index : Deed τ π) ≠
        .enlist role' index' := fun role index h => h role index rfl
    obtain ⟨r', hr', hkeeps⟩ := hpath.back hno hr
    have hdone : r'.settled = true := hsettled i r' hr' (hkeeps.role.symm.trans hrole)
    obtain rfl : r = r' := hkeeps.settled hdone
    have honce := htally.once i r hi hr'
    rw [if_pos hdone] at honce
    -- what was done when the publishers were settled is part of what was done before the request
    obtain ⟨new, hnew, _⟩ := hpath.trail
    have hsuffix : v.trail <:+ .terminate p :: before.reverse := by
      have hall : v.trail <:+ u.trail := ⟨new, hnew.symm⟩
      have hlater : .terminate p :: before.reverse <:+ u.trail := ⟨_, htrail.symm⟩
      rcases List.suffix_or_suffix_of_suffix hall hlater with h | h
      · exact h
      · exact absurd (h.subset (List.mem_cons_self ..)) (hunasked p)
    rcases List.suffix_cons_iff.1 hsuffix with hall | ⟨rest, hrest⟩
    · exact absurd (hall ▸ List.mem_cons_self ..) (hunasked p)
    · refine ⟨hdone, ?_⟩
      rw [← List.reverse_reverse before, Deed.settlements_reverse, List.mem_reverse, ← hrest,
        Deed.settlements_append, honce]
      exact List.mem_append_right _ (List.mem_cons_self ..)

end Asked

/-! ## §3 The phases in turn -/

/-- What each of the six phases does, in full, where `own` are the processes of the roles. -/
def Stage (y : Yard τ σ π) (own : Role → π → Prop) : Nat → List (Deed τ π) → Prop
  | 0, part => part = launches y .subscriber y.plan.subscribers
  | 1, part => ∃ warmup, y.patience.warmup = some warmup ∧ part = [.sleep warmup]
  | 2, part => part = launches y .publisher y.plan.publishers
  | 3, part => ∀ d ∈ part, d.JoinCall (own .publisher)
  | 4, part => ∀ d ∈ part, d.AskCall (own .subscriber)
  | 5, part => ∀ d ∈ part, d.WaitCall (own .subscriber)
  | _, _ => False

/-- A run on its way from `w` to `u`: the phases it has done, and what it has done of the next one. -/
structure Sofar (y : Yard τ σ π) (F : Fates σ π) (old : Nat → Prop) (w : World τ σ π)
    (done : List (List (Deed τ π))) (unfinished : List (Deed τ π)) (u : World τ σ π) : Prop where
  path : Path y.host F (fun _ => True) w u
  outline : u.outline = w.outline ++ done.flatten ++ unfinished
  stages : ∀ k part, done[k]? = some part → Stage y u.Mans k part
  begun : unfinished ≠ [] → ∃ part, Stage y u.Mans done.length part ∧ unfinished <+: part
  asked : Asked y F old u

section Sofar

variable {F : Fates σ π} {ok : Deed τ π → Prop} {old : Nat → Prop} {v : World τ σ π}
  {done : List (List (Deed τ π))} {part : List (Deed τ π)}

theorem Stage.mono {own own' : Role → π → Prop} (hown : ∀ role p, own role p → own' role p) {k : Nat}
    (h : Stage y own k part) : Stage y own' k part := by
  -- only the later phases are about the processes of a role
  match k with
  | 0 | 1 | 2 => exact h
  | 3 =>
    intro d hd
    have hcall := h d hd
    cases d with
    | poll p | collect p _ | kill p => exact hown _ _ hcall
    | _ => exact hcall
  | 4 =>
    intro d hd
    have hcall := h d hd
    cases d with
    | poll p | terminate p => exact hown _ _ hcall
    | _ => exact hcall
  | 5 =>
    intro d hd
    have hcall := h d hd
    cases d with
    | await p _ | kill p => exact hown _ _ hcall
    | _ => exact hcall
  | _ + 6 => exact h

theorem Sofar.kept (h : Sofar y F old w done [] v) (hpath : Path y.host F ok v u) (k : Nat)
    (part : List (Deed τ π)) (hpart : done[k]? = some part) : Stage y u.Mans k part :=
  (h.stages k part hpart).mono fun _ _ => hpath.mans

theorem Sofar.next (h : Sofar y F old w done [] v) (hpath : Path y.host F ok v u)
    (hstage : Stage y u.Mans done.length part) (houtline : u.outline = v.outline ++ part)
    (hasked : Asked y F old u) : Sofar y F old w (done ++ [part]) [] u where
  path := h.path.trans (hpath.mono fun _ _ => trivial)
  outline := by
    rw [houtline, h.outline]
    simp
  stages k part' hpart' := by
    -- the phases done before, the one just done, and none beyond it
    rcases Nat.lt_trichotomy k done.length with hlt | rfl | hgt
    · rw [List.getElem?_append_left hlt] at hpart'
      exact h.kept hpath k part' hpart'
    · rw [List.getElem?_concat_length] at hpart'
      exact Option.some.inj hpart' ▸ hstage
    · rw [List.getElem?_eq_none (by simp; omega)] at hpart'
      cases hpart'
  begun hne := absurd rfl hne
  asked := hasked

theorem Sofar.cut (h : Sofar y F old w done [] v) (hpath : Path y.host F ok v u)
    (hstage : part ≠ [] → ∃ whole, Stage y u.Mans done.length whole ∧ part <+: whole)
    (houtline : u.outline = v.outline ++ part) (hasked : Asked y F old u) :
    Sofar y F old w done part u where
  path := h.path.trans (hpath.mono fun _ _ => trivial)
  outline := by
    rw [houtline, h.outline, List.append_nil]
  stages := h.kept hpath
  begun := hstage
  asked := hasked

theorem Sofar.log (h : Sofar y F old w done part v) (record : LogRecord) :
    Sofar y F old w done part (v.noted (.log record)) where
  path := h.path.tail (.log trivial)
  outline := (World.outline_of_invisible rfl rfl).trans h.outline
  stages := h.stages
  begun := h.begun
  asked := by
    have hpath : Path y.host F (fun d => d = .log record) v (v.noted (.log record)) :=
      .single (.log rfl)
    exact h.asked.along (fun _ _ => nofun) (fun _ => nofun) hpath

/-- A run from `w` that has done the first `k` phases. -/
structure Reached (y : Yard τ σ π) (F : Fates σ π) (old : Nat → Prop) (w : World τ σ π) (k : Nat)
    (u : World τ σ π) : Prop where
  sofar : ∃ done, done.length = k ∧ Sofar y F old w done [] u
  unasked : k ≤ 4 → u.Unasked
  settled : k = 4 → u.Settled .publisher

/-- A run from `w` that was cut in one of its phases. -/
def Struck (y : Yard τ σ π) (F : Fates σ π) (old : Nat → Prop) (w u : World τ σ π) : Prop :=
  ∃ done unfinished, Sofar y F old w done unfinished u

variable {k : Nat}

theorem Reached.next (h : Reached y F old w k v) (hpath : Path y.host F ok v u)
    (hstage : Stage y u.Mans k part) (houtline : u.outline = v.outline ++ part)
    (hasked : Asked y F old u) (hunasked : k < 4 → u.Unasked)
    (hsettled : k = 3 → u.Settled .publisher) : Reached y F old w (k + 1) u where
  sofar := by
    -- the number of the phase is how many were done before it
    obtain ⟨done, rfl, hsofar⟩ := h.sofar
    exact ⟨done ++ [part], by simp, hsofar.next hpath hstage houtline hasked⟩
  unasked hk := hunasked (by omega)
  settled hk := hsettled (by omega)

theorem Reached.cut (h : Reached y F old w k v) (hpath : Path y.host F ok v u)
    (hstage : part ≠ [] → ∃ whole, Stage y u.Mans k whole ∧ part <+: whole)
    (houtline : u.outline = v.outline ++ part) (hasked : Asked y F old u) :
    Struck y F old w u := by
  obtain ⟨done, rfl, hsofar⟩ := h.sofar
  exact ⟨done, part, hsofar.cut hpath hstage houtline hasked⟩

theorem spawnFrom_reached {count : Nat} (hk : k < 3)
    (hstage : ∀ own, Stage y own k (launches y role count)) :
    (spawnFrom y role 0 count).Meets (Reached y F old w k) (fun _ => Reached y F old w (k + 1))
      (Action.Faulty fun _ => Struck y F old w) := by
  apply Action.Meets.of_eq
  intro v hv
  -- the path of the loop and what it shows are known of the same run
  have hboth := (spawnFrom_goes F y role count v trivial).and (spawnFrom_outline y role count v)
  refine hboth.mono (fun _ => id) ?_ (Action.Faulty.mono ?_)
  · intro _ u hu
    obtain ⟨⟨hpath, _⟩, houtline⟩ := hu
    have hunasked : u.Unasked := hpath.unasked (fun _ => id) (hv.unasked (by omega))
    exact hv.next hpath (hstage _) houtline (.inl hunasked) (fun _ => hunasked) (by omega)
  · intro f u hu
    obtain ⟨⟨v', hpath, hfails⟩, part, hpart, houtline⟩ := hu
    have hwhole := hfails.through hpath
    have hunasked : u.Unasked := Path.unasked (fun _ => id) hwhole (hv.unasked (by omega))
    exact hv.cut hwhole (fun _ => ⟨_, hstage _, hpart⟩) houtline (.inl hunasked)

theorem warmUp_reached :
    (warmUp y).Meets (Reached y F old w 1) (fun _ => Reached y F old w 2)
      (Action.Faulty fun _ => Struck y F old w) := by
  apply Action.Meets.of_eq
  intro v hv
  have hboth := (warmUp_goes y F v trivial).and (warmUp_meets y v)
  refine hboth.mono (fun _ => id) ?_ (Action.Faulty.mono ?_)
  · intro _ u hu
    obtain ⟨⟨hpath, _⟩, warmup, env, record, hwarmup, _, rfl⟩ := hu
    have hunasked := hpath.unasked (fun _ => id) (hv.unasked (by omega))
    exact hv.next hpath ⟨warmup, hwarmup, rfl⟩ (World.outline_append [.sleep warmup, .log record] rfl)
      (.inl hunasked) (fun _ => hunasked) (by omega)
  · intro f u hu
    obtain ⟨⟨v', hpath, hfails⟩, hcut⟩ := hu
    have hwhole := hfails.through hpath
    have hunasked : u.Unasked := Path.unasked (fun _ => id) hwhole (hv.unasked (by omega))
    -- it failed for want of a time, or in its sleep
    rcases hcut with ⟨_, rfl⟩ | ⟨warmup, env, record, hwarmup, _, rfl⟩
    · refine hv.cut hwhole (absurd rfl) ?_ (.inl hunasked)
      exact (World.outline_of_invisible rfl rfl).trans (List.append_nil _).symm
    · exact hv.cut hwhole (fun _ => ⟨_, ⟨warmup, hwarmup, rfl⟩, List.prefix_rfl⟩)
        (World.outline_append [.sleep warmup, .log record] rfl) (.inl hunasked)

theorem Path.stage (hpath : Path y.host F ok v u)
    (hstage : ∀ part, (∀ d ∈ part, ok d ∧ d.visible = true) → Stage y v.Mans k part) :
    ∃ part, Stage y u.Mans k part ∧ u.outline = v.outline ++ part := by
  obtain ⟨part, houtline, hall⟩ := hpath.outline
  exact ⟨part, (hstage part hall).mono fun _ _ => hpath.mans, houtline⟩

/-- A phase whose deeds are those of its stage. -/
theorem Goes.reached {a : Act τ σ π Unit} {ok : World τ σ π → Deed τ π → Prop}
    {P R : World τ σ π → Prop} {Q : World τ σ π → Unit → World τ σ π → Prop}
    (hgoes : ∀ v, Reached y F old w k v → P v → Goes y F (ok v) (· = v) a (Q v))
    (hstage : ∀ v part, (∀ d ∈ part, Deed.OrRead (ok v) d ∧ d.visible = true) →
      Stage y v.Mans k part)
    (hasked : ∀ v u, Reached y F old w k v → Path y.host F (Deed.OrRead (ok v)) v u →
      Asked y F old u)
    (hQ : ∀ v u, Reached y F old w k v → Path y.host F (ok v) v u → Q v () u →
      (k < 4 → u.Unasked) ∧ (k = 3 → u.Settled .publisher) ∧ R u) :
    a.Meets (fun v => Reached y F old w k v ∧ P v) (fun _ u => Reached y F old w (k + 1) u ∧ R u)
      (Action.Faulty fun _ => Struck y F old w) := by
  apply Goes.along (fun v hv => hgoes v hv.1 hv.2)
  · intro v _ u h hpath hend
    obtain ⟨hv, _⟩ := h
    -- what the phase shows is what its stage allows
    obtain ⟨part, hpart, houtline⟩ := hpath.stage fun part hall =>
      hstage v part fun d hd => ⟨d.orRead (hall d hd).1, (hall d hd).2⟩
    obtain ⟨hunasked, hsettled, hR⟩ := hQ v u hv hpath hend
    have hu : Asked y F old u := hasked v u hv (hpath.mono Deed.orRead)
    exact ⟨hv.next hpath hpart houtline hu hunasked hsettled, hR⟩
  · intro v f u h hpath
    obtain ⟨hv, _⟩ := h
    obtain ⟨part, hpart, houtline⟩ := hpath.stage (hstage v)
    exact hv.cut hpath (fun _ => ⟨part, hpart, List.prefix_rfl⟩) houtline (hasked v u hv hpath)

theorem joinPublishers_reached (hF : y.host.Respects F) :
    (joinPublishers y).Meets (Reached y F old w 3) (fun _ => Reached y F old w 4)
      (Action.Faulty fun _ => Struck y F old w) := by
  have hphase := Goes.reached (P := fun _ => True) (R := fun _ => True)
    (fun v (_ : Reached y F old w 3 v) _ => joinPublishers_goes hF v) ?_ ?_ ?_
  · refine hphase.mono (fun v hv => ⟨hv, trivial⟩) (fun _ u hu => hu.1) fun _ _ => id
  · intro v part hall d hd
    obtain ⟨hjoins, hvisible⟩ := hall d hd
    cases d with
    | log _ | readClock | read _ _ | settle _ _ _ _ => cases hvisible
    | collect _ _ => exact hjoins.1
    | _ => exact hjoins
  -- nobody is asked to stop while the publishers are waited for
  · intro v u hv hpath
    exact .inl (hpath.unasked (fun _ => id) (hv.unasked (by omega)))
  · intro v u hv hpath hsettled
    exact ⟨fun _ => hpath.unasked (fun _ => id) (hv.unasked (by omega)), fun _ => hsettled, trivial⟩

/-- Asking the subscribers to stop. The publishers are settled, and nobody was asked before. -/
theorem askAll_reached (hF : y.host.Respects F) (htally : Tally old w) (positions : List Nat) :
    (askAll y positions).Meets
      (fun u => Reached y F old w 4 u ∧ Lists .subscriber positions u)
      (fun _ u => Reached y F old w 5 u ∧ Lists .subscriber positions u)
      (Action.Faulty fun _ => Struck y F old w) := by
  apply Goes.reached (fun v _ hlists => askAll_goes hF v hlists)
  · intro v part hall d hd
    obtain ⟨hasks, hvisible⟩ := hall d hd
    cases d with
    | read _ _ => cases hvisible
    | _ => exact hasks
  · intro v u hv hpath
    obtain ⟨done, _, hsofar⟩ := hv.sofar
    -- the world before the requests is the one in which the publishers are settled
    refine .inr ⟨v, hv.unasked (by omega), hv.settled rfl, hsofar.path.tally htally,
      hpath.mono ?_⟩
    intro d hasks role index heq
    subst heq
    exact hasks
  · exact fun v u _ _ hlists => ⟨by omega, by omega, hlists⟩

theorem awaitAll_reached (hF : y.host.Respects F) (positions : List Nat) :
    (awaitAll y positions).Meets
      (fun u => Reached y F old w 5 u ∧ Lists .subscriber positions u)
      (fun _ => Reached y F old w 6) (Action.Faulty fun _ => Struck y F old w) := by
  have hphase := Goes.reached (P := Lists .subscriber positions) (R := fun _ => True)
    (fun v (_ : Reached y F old w 5 v) hlists => awaitAll_goes hF v hlists) ?_ ?_ ?_
  · exact hphase.mono (fun _ => id) (fun _ u hu => hu.1) fun _ _ => id
  · intro v part hall d hd
    obtain ⟨hwaits, hvisible⟩ := hall d hd
    cases d with
    | log _ | readClock | read _ _ | settle _ _ _ _ => cases hvisible
    | await _ _ => exact hwaits.1
    | _ => exact hwaits
  · intro v u hv hpath
    obtain ⟨done, _, hsofar⟩ := hv.sofar
    -- the requests are over when the subscribers are waited for
    exact hsofar.asked.along (fun _ _ => id) (fun _ => id) hpath
  · exact fun v u _ _ _ => ⟨by omega, by omega, trivial⟩

/-- The phases are done one after the other, until one of them is cut. -/
theorem phases_sofar (hF : y.host.Respects F) (htally : Tally old w) (hunasked : w.Unasked) :
    (phases y).Meets (· = w) (fun _ => Reached y F old w 6)
      (Action.Faulty fun _ => Struck y F old w) := by
  have hphases := phases_meets (y := y) (I := Reached y F old w)
    (E := fun _ => Struck y F old w) ?_ (spawnFrom_reached (by omega) fun _ => rfl)
    warmUp_reached (spawnFrom_reached (by omega) fun _ => rfl) (joinPublishers_reached hF)
    (askAll_reached hF htally) (awaitAll_reached hF)
  · refine hphases.mono ?_ (fun _ _ => id) fun _ _ => id
    -- in the beginning no phase is done and nobody was asked
    intro u heq
    subst heq
    refine ⟨⟨[], rfl, .refl, by simp, by simp, absurd rfl, .inl hunasked⟩, fun _ => hunasked, ?_⟩
    exact fun h => absurd h (by omega)
  -- a log record does not show and asks nobody
  · intro k v record hv
    obtain ⟨done, hlength, hsofar⟩ := hv.sofar
    refine ⟨⟨done, hlength, hsofar.log record⟩, fun hk => ?_, hv.settled⟩
    intro p hmem
    rcases List.mem_cons.1 hmem with hlog | hmem
    · cases hlog
    · exact hv.unasked hk p hmem

end Sofar

/-! ## §4 The whole run -/

section End

variable {fleet : Fleet τ σ π}

/-- Where the phases ended: if nothing cut them, all six are done. -/
theorem atCut_sofar (y : Yard τ σ π) (fleet : Fleet τ σ π) :
    ∃ done unfinished, Sofar y Fates.blank (SettledAt fleet.records) (atBuild y fleet).2 done
        unfinished (atCut y fleet).2 ∧
      ((atCut y fleet).1 = .ok () → done.length = 6 ∧ unfinished = []) := by
  have hunasked : (atBuild y fleet).2.Unasked := fun p hmem => (atBuild_records y fleet).2 _ hmem
  have hphases := phases_sofar y.host.respects_blank (tally_atBuild y fleet) hunasked _ rfl
  cases hcut : (atCut y fleet).1 with
  | ok _ =>
    obtain ⟨done, hlength, hsofar⟩ := (hphases.of_ok hcut).sofar
    exact ⟨done, [], hsofar, fun _ => ⟨hlength, rfl⟩⟩
  | error stop =>
    have hstop := hphases.of_error hcut
    cases stop with
    | outOfFuel => exact absurd hstop id
    | fault f =>
      obtain ⟨done, unfinished, hsofar⟩ := hstop
      exact ⟨done, unfinished, hsofar, fun hok => by cases hok⟩

/-- The cleanup only kills and waits; it has nothing to do when nothing cut the phases. -/
theorem atCleanup_outline (y : Yard τ σ π) (fleet : Fleet τ σ π) :
    ∃ cleanup, (atCleanup y fleet).2.outline = (atCut y fleet).2.outline ++ cleanup ∧
      (∀ d ∈ cleanup, d.WaitCall fun _ => True) ∧
      ((atCut y fleet).1 = .ok () → cleanup = []) := by
  cases hcut : (atCut y fleet).1 with
  | ok _ =>
    have hsettled := (atCut_path y.host.respects_blank fleet).2.2 hcut
    -- all records are settled, so there is nothing to do
    have hclosed : atCleanup y fleet = (.ok (), (atCut y fleet).2) :=
      killUnsettled_of_idle y (idle_of_settled hsettled)
    refine ⟨[], by rw [hclosed, List.append_nil], ?_, fun _ => rfl⟩
    exact fun d hd => absurd hd List.not_mem_nil
  | error stop =>
    obtain ⟨cleanup, houtline, hall⟩ :=
      (atCleanup_through y.host.respects_blank fleet).outline
    refine ⟨cleanup, houtline, fun d hd => ?_, fun hok => by cases hok⟩
    obtain ⟨hwaits, hvisible⟩ := hall d hd
    cases d with
    | log _ | readClock | read _ _ | settle _ _ _ _ => cases hvisible
    | await _ _ => exact hwaits.1
    | _ => exact hwaits

/-- What the outline of a run looks like: that of making sure that there is a client, some of the
phases in full and in turn, the beginning of the next one, and the cleanup. When there is no client
nothing follows, and the run ends for the same reason. When nothing cuts the phases, all six are done
and there is nothing to clean up; so it is when the run returns. Before any request to stop, every
publisher of the run was settled with the outcome that it has in the end. -/
structure InOrder (y : Yard τ σ π) (fleet : Fleet τ σ π) (done : List (List (Deed τ π)))
    (unfinished cleanup : List (Deed τ π)) : Prop where
  outline : (atEnd y fleet).2.outline =
    (ensured y fleet.env).2.history.filter Deed.visible ++ done.flatten ++ unfinished ++ cleanup
  building : ∀ d ∈ (ensured y fleet.env).2.history, d.Builds
  stages : ∀ k part, done[k]? = some part → Stage y (atEnd y fleet).2.Mans k part
  begun : unfinished ≠ [] →
    ∃ part, Stage y (atEnd y fleet).2.Mans done.length part ∧ unfinished <+: part
  cleaning : ∀ d ∈ cleanup, d.WaitCall fun _ => True
  unbuilt : ∀ stop, (ensured y fleet.env).1 = .error stop →
    (atEnd y fleet).1 = .error stop ∧ done = [] ∧ unfinished = [] ∧ cleanup = []
  complete : (ensured y fleet.env).1 = .ok () → (atCut y fleet).1 = .ok () →
    done.length = 6 ∧ unfinished = [] ∧ cleanup = []
  returned : ∀ sum, (atEnd y fleet).1 = .ok sum →
    (ensured y fleet.env).1 = .ok () ∧ (atCut y fleet).1 = .ok ()
  heeded : ∀ before p after i r, (atEnd y fleet).2.history = before ++ .terminate p :: after →
    ¬ SettledAt fleet.records i → (atEnd y fleet).2.record? i = some r → r.role = .publisher →
    r.settled = true ∧ r.outcome ∈ Deed.settlements i before

/-- The build alone decides what is done before the phases. -/
theorem outline_atBuild (y : Yard τ σ π) (fleet : Fleet τ σ π) :
    (atBuild y fleet).2.outline = (ensured y fleet.env).2.history.filter Deed.visible := by
  rw [atBuild_eq]
  rfl

theorem builds_of_ensured (y : Yard τ σ π) (fleet : Fleet τ σ π) :
    ∀ d ∈ (ensured y fleet.env).2.history, d.Builds := by
  intro d hd
  refine (atBuild_records y fleet).2 d ?_
  rw [atBuild_eq]
  exact List.mem_reverse.1 hd

theorem inOrder_of_unbuilt {stop : Stop} (hbuilt : (atBuild y fleet).1 = .error stop) :
    InOrder y fleet [] [] [] := by
  have hend := atEnd_of_unbuilt hbuilt
  have hensured : (ensured y fleet.env).1 = .error stop := by rwa [atBuild_eq] at hbuilt
  refine ⟨by simp [hend, outline_atBuild], builds_of_ensured y fleet, by simp, absurd rfl, by simp,
    ?_, ?_, ?_, ?_⟩
  · intro stop' hstop'
    obtain rfl := Except.error.inj (hensured.symm.trans hstop')
    exact ⟨by rw [hend], rfl, rfl, rfl⟩
  · intro hok
    cases hensured.symm.trans hok
  · intro sum hsum
    rw [hend] at hsum
    cases hsum
  · intro before p after i r hsplit
    -- a request would be among the deeds of the build, which asks nobody
    have hmem : Deed.terminate p ∈ (atEnd y fleet).2.history :=
      hsplit ▸ List.mem_append_right _ (List.mem_cons_self ..)
    rw [hend] at hmem
    exact absurd ((atBuild_records y fleet).2 _ (List.mem_reverse.1 hmem)) id

theorem inOrder_of_built (hbuilt : (atBuild y fleet).1 = .ok ()) :
    ∃ done unfinished cleanup, InOrder y fleet done unfinished cleanup := by
  obtain ⟨done, unfinished, hsofar, hcomplete⟩ := atCut_sofar y fleet
  obtain ⟨cleanup, hcleanup, hwaits, hnothing⟩ := atCleanup_outline y fleet
  have hthrough := atCleanup_through y.host.respects_blank fleet
  -- what is logged in the end does not show, and changes no record
  obtain ⟨hpath, houtline⟩ : Path y.host Fates.blank
        (fun d => d.OrRead (Deed.Waits fun _ => True) ∨ d.Logs)
        (atCut y fleet).2 (atEnd y fleet).2 ∧
      (atEnd y fleet).2.outline = (atCut y fleet).2.outline ++ cleanup := by
    have hpath : Path y.host Fates.blank (fun d => d.OrRead (Deed.Waits fun _ => True) ∨ d.Logs)
        (atCut y fleet).2 (atCleanup y fleet).2 := hthrough.mono fun _ => Or.inl
    rcases atEnd_world hbuilt with hend | ⟨d, hd, hend⟩
    · rw [hend]
      exact ⟨hpath, hcleanup⟩
    · rw [hend]
      refine ⟨hpath.tail (.logs hd (.inr hd)), ?_⟩
      exact (World.outline_of_invisible rfl hd.invisible).trans hcleanup
  -- what has a process in the middle of the run has it in the end
  have hmans : ∀ role p, (atCut y fleet).2.Mans role p → (atEnd y fleet).2.Mans role p :=
    fun _ _ => hpath.mans
  have hasked : Asked y Fates.blank (SettledAt fleet.records) (atEnd y fleet).2 :=
    hsofar.asked.along (fun _ _ h => h.elim id id) (fun _ h => h.elim id id) hpath
  have hensured : (ensured y fleet.env).1 = .ok () := by rwa [atBuild_eq] at hbuilt
  refine ⟨done, unfinished, cleanup, ?_, builds_of_ensured y fleet, ?_, ?_, hwaits, ?_, ?_, ?_, ?_⟩
  · rw [houtline, hsofar.outline, outline_atBuild]
  · exact fun k part hpart => (hsofar.stages k part hpart).mono hmans
  · intro hne
    obtain ⟨part, hstage, hbegun⟩ := hsofar.begun hne
    exact ⟨part, hstage.mono hmans, hbegun⟩
  · intro stop hunbuilt
    cases hensured.symm.trans hunbuilt
  · intro _ hcut
    obtain ⟨hlength, hunfinished⟩ := hcomplete hcut
    exact ⟨hlength, hunfinished, hnothing hcut⟩
  · exact fun sum hreturn => ⟨hensured, (uncut_of_returned hreturn).2⟩
  · exact fun before p after i r hsplit => hasked.heeded hsplit

/-- Every run is in order, whatever the machine does and however the run ends. -/
theorem run_in_order (y : Yard τ σ π) (fleet : Fleet τ σ π) :
    ∃ done unfinished cleanup, InOrder y fleet done unfinished cleanup := by
  cases hbuilt : (atBuild y fleet).1 with
  | ok _ => exact inOrder_of_built hbuilt
  | error stop => exact ⟨_, _, _, inOrder_of_unbuilt hbuilt⟩

end End

end Fleet

end BrokerLoad
