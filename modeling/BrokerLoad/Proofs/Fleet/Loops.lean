import BrokerLoad.Proofs.Fleet.Rounds

/-!
# Rounds in a row

The rounds of a phase follow one another at the positions of a role, and those that wait share one
deadline. Whatever every round keeps is kept by the phase. The positions are looked up once; they
stay right because no round changes the role of a record.

## Main statements

* `Fleet.rounds_meets`: a loop of rounds.
* `Fleet.joinPublishers_meets`, `Fleet.askAll_meets`, `Fleet.awaitAll_meets`: the phases made of
  rounds, from what a round keeps.
-/

namespace BrokerLoad

namespace Fleet

variable {τ σ π α : Type} [Seconds τ] {y : Yard τ σ π} {h : Host τ σ π} {u v w : World τ σ π}
  {p : π} {i : Nat} {r : Record τ π} {e : Exit π} {role : Role} {heard : Option String → Prop}

/-! ## §1 Roles -/

omit [Seconds τ] in
theorem map_set_of_eq {records : List (Record τ π)} {t : Record τ π} {f : Record τ π → α}
    (hr : records[i]? = some r) (hf : f t = f r) : (records.set i t).map f = records.map f := by
  obtain ⟨hi, rfl⟩ := List.getElem?_eq_some_iff.1 hr
  rw [List.map_set, hf, ← List.getElem_map f (h := by simpa using hi)]
  exact List.set_getElem_self _

omit [Seconds τ] in
/-- The positions of a role depend on the roles of the records only. -/
theorem Lists.congr {positions : List Nat}
    (hroles : u.state.records.map (·.role) = w.state.records.map (·.role))
    (hlists : Lists role positions w) : Lists role positions u := by
  have hrole : ∀ (v : World τ σ π) (i : Nat),
      (∃ r, v.record? i = some r ∧ r.role = role) ↔
        (v.state.records.map (·.role))[i]? = some role := by
    intro v i
    rw [List.getElem?_map, Option.map_eq_some_iff]
    rfl
  intro i
  rw [hlists i, hrole, hrole, hroles]

omit [Seconds τ] in
theorem Lists.role_eq {positions : List Nat} (hw : Lists role positions w) (hi : i ∈ positions)
    (hr : w.record? i = some r) : r.role = role := by
  obtain ⟨r', hr', hrole⟩ := (hw i).1 hi
  obtain rfl : r = r' := Option.some.inj (hr.symm.trans hr')
  exact hrole

theorem Closes.roles (hu : Closes role heard e i r v u) (hr : v.record? i = some r) :
    u.state.records.map (·.role) = v.state.records.map (·.role) := by
  obtain ⟨error, before, later, hrecords, _⟩ := hu.settled
  rw [hrecords]
  exact map_set_of_eq hr (by simp)

theorem Parted.records {deadline : τ} (hv : Parted y p deadline w e v) :
    v.state.records = w.state.records ∧ e.process = p := by
  cases hv with
  | exited hcollected => exact ⟨hcollected.records, rfl⟩
  | killed hrunning _ _ => exact ⟨hrunning.records, rfl⟩

theorem Released.records {deadline : τ} (hv : Released y p deadline w e v) :
    v.state.records = w.state.records ∧ e.process = p := by
  cases hv <;> exact ⟨rfl, rfl⟩

theorem Joined.roles {deadline : τ} (hu : Joined y deadline i w u) :
    u.state.records.map (·.role) = w.state.records.map (·.role) := by
  cases hu with
  | passed _ => rfl
  | closed hr _ _ hparted hcloses =>
    have hrecords := hparted.records.1
    rw [hcloses.roles ((World.record?_congr hrecords i).trans hr), hrecords]

theorem Stopped.roles {deadline : τ} (hu : Stopped y deadline i w u) :
    u.state.records.map (·.role) = w.state.records.map (·.role) := by
  cases hu with
  | passed _ => rfl
  | closed hr _ _ hreleased hcloses =>
    have hrecords := hreleased.records.1
    rw [hcloses.roles ((World.record?_congr hrecords i).trans hr), hrecords]

theorem Requested.records {asked : Bool} (hu : Requested y i w asked u) :
    u.state.records = w.state.records := by
  cases hu <;> rfl

/-! ## §2 Loops and phases -/

section Loops

variable {start : World τ σ π} {P : World τ σ π → Prop} {R : τ → World τ σ π → Prop}
  {positions : List Nat}

omit [Seconds τ] in
/-- From the contract of a part in single worlds to one about what holds before and after it. -/
theorem Turns.meets {a : Act τ σ π α} {Q : World τ σ π → α → World τ σ π → Prop}
    {R : α → World τ σ π → Prop} (ha : ∀ w, Turns h w a (Q w))
    (hkeeps : ∀ w x u, P w → Q w x u → R x u) :
    a.Meets (fun w => Heard h start w ∧ P w) (fun x u => Heard h start u ∧ R x u)
      (Action.Faulty fun _ u => Heard h start u) := by
  apply Action.Meets.of_eq
  intro w hyp
  obtain ⟨hheard, hw⟩ := hyp
  refine (ha w).mono (fun _ => id) ?_ (Action.Faulty.mono fun _ u hu => hheard.trans hu)
  exact fun x u hu => ⟨hheard.trans hu.1, hkeeps w x u hw hu.2⟩

omit [Seconds τ] in
/-- Along a path without readings nothing is read. -/
theorem heard_of_path {F : Fates σ π} {ok : Deed τ π → Prop} (hp : Path h F ok w u)
    (hno : ∀ j output, ¬ ok (.read j output)) : Heard h w u := by
  obtain ⟨new, hnew, hall⟩ := hp.trail
  intro j output hread
  rw [hnew] at hread
  rcases List.mem_append.1 hread with hread | hread
  · exact absurd (hall _ hread) (hno j output)
  · exact .inl hread

omit [Seconds τ] in
/-- Leaving out what was heard. -/
theorem meets_of_heard {a : Act τ σ π α} {R : α → World τ σ π → Prop}
    (ha : ∀ start, a.Meets (fun w => Heard h start w ∧ P w) (fun x u => Heard h start u ∧ R x u)
      (Action.Faulty fun _ u => Heard h start u)) :
    a.Meets P R (Action.Faulty fun _ _ => True) := by
  intro w hw
  refine (ha w w ⟨.refl, hw⟩).mono (fun x u hu => hu.2) (Action.Faulty.mono fun _ _ _ => trivial)

omit [Seconds τ] in
/-- A loop of rounds at the positions of a role. Every round keeps the invariant and all roles. -/
theorem rounds_meets {f : Nat → Act τ σ π Unit} {Q : Nat → World τ σ π → World τ σ π → Prop}
    (hf : ∀ i w, Turns h w (f i) fun _ => Q i w)
    (hroles : ∀ i w u, Q i w u → u.state.records.map (·.role) = w.state.records.map (·.role))
    (hkeeps : ∀ i w u, P w → (∀ r, w.record? i = some r → r.role = role) → Q i w u → P u) :
    (forEach f positions).Meets (fun w => Heard h start w ∧ P w ∧ Lists role positions w)
      (fun _ u => Heard h start u ∧ P u ∧ Lists role positions u)
      (Action.Faulty fun _ u => Heard h start u) := by
  -- induction on the positions that are left; the list that is looked up stays whole
  have hloop : ∀ rest, (∀ i ∈ rest, i ∈ positions) →
      (forEach f rest).Meets (fun w => Heard h start w ∧ P w ∧ Lists role positions w)
        (fun _ u => Heard h start u ∧ P u ∧ Lists role positions u)
        (Action.Faulty fun _ u => Heard h start u) := by
    intro rest hrest
    induction rest with
    | nil => exact Action.Meets.pure fun _ => id
    | cons i rest ih =>
      obtain ⟨hi, hrest⟩ := List.forall_mem_cons.1 hrest
      refine (Turns.meets (hf i) ?_).bind fun _ => ih hrest
      intro w _ u hyp hu
      obtain ⟨hw, hlists⟩ := hyp
      exact ⟨hkeeps i w u hw (fun r hr => hlists.role_eq hi hr) hu, hlists.congr (hroles i w u hu)⟩
  exact hloop positions fun _ => id

omit [Seconds τ] in
/-- A time that is needed is the one that was given. -/
theorem needed_meets (use : EmptyUse) (time : Option α) :
    (Action.ofExcept (needed use time) : Act τ σ π α).Meets (fun w => Heard h start w ∧ P w)
      (fun t w => Heard h start w ∧ P w ∧ time = some t)
      (Action.Faulty fun _ u => Heard h start u) := by
  cases time with
  | none => exact Action.Meets.fail fun w hw => hw.1
  | some t => exact Action.Meets.pure fun w hw => ⟨hw.1, hw.2, rfl⟩

/-- Waiting for the publishers: what the rounds keep with the deadline that they share. -/
theorem joinPublishers_meets
    (hstart : ∀ w grace clock env, P w → y.patience.graceMargin = some grace →
      y.host.now w.state.env = (.ok clock, env) →
      R (Seconds.add clock (Seconds.add y.plan.duration grace)) (w.after .readClock env))
    (hround : ∀ deadline i w u, R deadline w →
      (∀ r, w.record? i = some r → r.role = .publisher) → Joined y deadline i w u → R deadline u) :
    (joinPublishers y).Meets (fun w => Heard y.host start w ∧ P w)
      (fun _ u => Heard y.host start u ∧ ∃ deadline, R deadline u)
      (Action.Faulty fun _ u => Heard y.host start u) := by
  unfold joinPublishers
  refine (needed_meets _ _).bind fun grace => ?_
  -- the deadline is set once, for all rounds
  refine (Turns.meets (fun _ => Turns.now y)
    (R := fun clock => R (Seconds.add clock (Seconds.add y.plan.duration grace))) ?_).bind
      fun clock => ?_
  · intro w clock u hyp hnow
    obtain ⟨hw, hgrace⟩ := hyp
    obtain ⟨env, hnow, rfl⟩ := hnow
    exact hstart w grace clock env hw hgrace hnow
  refine Action.Meets.bind (R := fun positions w => Heard y.host start w ∧
    R (Seconds.add clock (Seconds.add y.plan.duration grace)) w ∧
    Lists .publisher positions w) ?_ fun positions => ?_
  · intro w hyp
    obtain ⟨hheard, hw⟩ := hyp
    obtain ⟨positions, hrun, hlists⟩ := positionsOf_run .publisher w
    rw [hrun]
    exact ⟨hheard, hw, hlists⟩
  · refine (rounds_meets (fun i w => joinOne_turns y _ _ i w) (fun _ _ _ => Joined.roles)
      (hround _)).mono (fun _ => id) ?_ fun _ _ => id
    exact fun _ u hu => ⟨hu.1, _, hu.2.1⟩

/-- Asking some subscribers to stop. -/
theorem askAll_meets
    (hround : ∀ i w asked u, P w → (∀ r, w.record? i = some r → r.role = .subscriber) →
      Requested y i w asked u → P u) (positions : List Nat) :
    (askAll y positions).Meets
      (fun w => Heard y.host start w ∧ P w ∧ Lists .subscriber positions w)
      (fun _ u => Heard y.host start u ∧ P u ∧ Lists .subscriber positions u)
      (Action.Faulty fun _ u => Heard y.host start u) := by
  have hturns : ∀ i w, Turns y.host w (discard (terminate y i))
      fun _ u => ∃ asked, Requested y i w asked u := by
    intro i w
    exact Turns.discard ((terminate_turns y i w).post fun asked u hu => ⟨asked, hu⟩)
  refine rounds_meets hturns ?_ ?_
  · intro i w u hyp
    obtain ⟨asked, hu⟩ := hyp
    rw [hu.records]
  · intro i w u hw hrole hyp
    obtain ⟨asked, hu⟩ := hyp
    exact hround i w asked u hw hrole hu

/-- Waiting for some subscribers: what the rounds keep with the deadline that they share. -/
theorem awaitAll_meets
    (hstart : ∀ w grace clock env, P w → y.patience.stopGrace = some grace →
      y.host.now w.state.env = (.ok clock, env) →
      R (Seconds.add clock grace) (w.after .readClock env))
    (hround : ∀ deadline i w u, R deadline w →
      (∀ r, w.record? i = some r → r.role = .subscriber) → Stopped y deadline i w u → R deadline u)
    (positions : List Nat) :
    (awaitAll y positions).Meets
      (fun w => Heard y.host start w ∧ P w ∧ Lists .subscriber positions w)
      (fun _ u => Heard y.host start u ∧ ∃ deadline, R deadline u)
      (Action.Faulty fun _ u => Heard y.host start u) := by
  unfold awaitAll
  refine (Turns.meets (fun _ => Turns.now y)
    (R := fun clock w => (∀ grace, y.patience.stopGrace = some grace → R (Seconds.add clock grace) w) ∧
      Lists .subscriber positions w) ?_).bind fun clock => ?_
  · intro w clock u hyp hnow
    obtain ⟨hw, hlists⟩ := hyp
    obtain ⟨env, hnow, rfl⟩ := hnow
    exact ⟨fun grace hgrace => hstart w grace clock env hw hgrace hnow, hlists⟩
  refine (needed_meets _ _).bind fun grace => ?_
  refine (rounds_meets (fun i w => stopOne_turns y _ i w) (fun _ _ _ => Stopped.roles)
    (hround _)).mono ?_ ?_ fun _ _ => id
  · exact fun w hw => ⟨hw.1, hw.2.1.1 grace hw.2.2, hw.2.1.2⟩
  · exact fun _ u hu => ⟨hu.1, _, hu.2.1⟩

end Loops

end Fleet

end BrokerLoad
