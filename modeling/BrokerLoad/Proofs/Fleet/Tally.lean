import BrokerLoad.Proofs.Fleet.Phases

/-!
# How often a record is settled

Every attempt of a run to settle a record stands in its trail. Along every path a record is settled
at most once, and the outcome it has is the one that it was given then.

## Main definitions

* `Deed.settlements`: the outcomes that a record was given, in order.
* `Fleet.Tally`: the settlements in the trail are those that the records show.

## Main statements

* `Fleet.Path.tally`: every path keeps the tally.
* `Fleet.tally_atBuild`: the tally holds when the phases of a run begin.
-/

namespace BrokerLoad

variable {τ σ π : Type}

/-! ## §1 Settlements -/

/-- The outcomes that the record at a position was given. -/
def Deed.settlements (i : Nat) (deeds : List (Deed τ π)) :
    List (Status × Option Int × Option String) :=
  deeds.filterMap fun
    | .settle j status returncode error => if j = i then some (status, returncode, error) else none
    | _ => none

theorem Deed.settlements_reverse (i : Nat) (deeds : List (Deed τ π)) :
    settlements i deeds.reverse = (settlements i deeds).reverse :=
  List.filterMap_reverse

theorem Deed.settlements_append (i : Nat) (deeds more : List (Deed τ π)) :
    settlements i (deeds ++ more) = settlements i deeds ++ settlements i more :=
  List.filterMap_append

theorem Deed.settlements_settle (i j : Nat) (status : Status) (returncode : Option Int)
    (error : Option String) (deeds : List (Deed τ π)) :
    settlements i (.settle j status returncode error :: deeds) =
      if j = i then (status, returncode, error) :: settlements i deeds else settlements i deeds := by
  unfold settlements
  rw [List.filterMap_cons]
  split <;> simp_all

theorem Deed.settlements_cons {d : Deed τ π} (i : Nat) (deeds : List (Deed τ π))
    (hd : ∀ j status returncode error, d ≠ .settle j status returncode error) :
    settlements i (d :: deeds) = settlements i deeds := by
  cases d with
  | settle j status returncode error => exact absurd rfl (hd j status returncode error)
  | _ => rfl

namespace Fleet

/-! ## §2 The tally -/

/-- Apart from the `old` records, which were settled before, a settled record was settled once, with
the outcome that it has, and an open one never; nor was one that is not there. -/
structure Tally (old : Nat → Prop) (w : World τ σ π) : Prop where
  once : ∀ i r, ¬ old i → w.record? i = some r →
    Deed.settlements i w.trail = if r.settled then [r.outcome] else []
  unborn : ∀ i, w.state.records.length ≤ i → Deed.settlements i w.trail = []

/-- The record at a position is settled. -/
def SettledAt (records : List (Record τ π)) (i : Nat) : Prop :=
  ∃ r, records[i]? = some r ∧ r.settled = true

variable {h : Host τ σ π} {F : Fates σ π} {ok : Deed τ π → Prop} {u v w : World τ σ π}
  {old : Nat → Prop}

/-- The tally holds before anything is settled. -/
theorem tally_of_nothing (htrail : ∀ i, Deed.settlements i w.trail = []) :
    Tally (SettledAt w.state.records) w where
  once i r hi hr := by
    have hopen : ¬ r.settled = true := fun hsettled => hi ⟨r, hr, hsettled⟩
    rw [htrail i, if_neg hopen]
  unborn i _ := htrail i

/-- A deed that settles nothing keeps the tally of records with the same outcomes. -/
theorem Tally.step (hu : Tally old u) {d : Deed τ π} (htrail : v.trail = d :: u.trail)
    (hd : ∀ j status returncode error, d ≠ .settle j status returncode error)
    (hlength : v.state.records.length = u.state.records.length)
    (hback : ∀ j s, v.record? j = some s → ∃ r, u.record? j = some r ∧
      s.settled = r.settled ∧ s.outcome = r.outcome) : Tally old v where
  once j s hj hs := by
    obtain ⟨r, hr, hsettled, houtcome⟩ := hback j s hs
    rw [htrail, Deed.settlements_cons _ _ hd, hsettled, houtcome]
    exact hu.once j r hj hr
  unborn j hj := by
    rw [htrail, Deed.settlements_cons _ _ hd]
    exact hu.unborn j (hlength ▸ hj)

theorem Tally.enlist (hu : Tally old u) (role : Role) (index : Int) :
    Tally old ((u.noted (.enlist role index)).opened { role, index }) where
  once i r hi hr := by
    rcases World.record?_opened_cases _ _ _ hr with hr | ⟨rfl, rfl⟩
    · exact hu.once i r hi hr
    -- the new record was not there before, and so was never settled
    · exact hu.unborn _ (Nat.le_refl _)
  unborn i hi := by
    refine hu.unborn i (Nat.le_trans ?_ hi)
    simp

theorem Tally.report (hu : Tally old u) {i : Nat} {r : Record τ π}
    {f : Record τ π → Record τ π} (hr : u.record? i = some r)
    (hf : ∃ sent elapsed, f r = { r with sent, elapsed }) : Tally old (u.changed i f) where
  once j s hj hs := by
    -- a report changes no outcome
    rcases World.record?_changed_cases _ _ _ _ hs with ⟨_, hs⟩ | ⟨rfl, r', hr', rfl⟩
    · exact hu.once j s hj hs
    · obtain rfl : r = r' := Option.some.inj (hr.symm.trans hr')
      obtain ⟨sent, elapsed, hf⟩ := hf
      rw [hf]
      exact hu.once i r hj hr
  unborn j hj := by
    rw [World.changed_length] at hj
    exact hu.unborn j hj

/-- Settling an open record settles it for the first time. -/
theorem Tally.settle (hu : Tally old u) {i : Nat} {r : Record τ π} {status : Status}
    (returncode : Option Int) (error : Option String) (hr : u.record? i = some r)
    (hopen : r.settled = false) (hstatus : status ≠ .pending) :
    Tally old ((u.noted (.settle i status returncode error)).changed i
      fun r => r.settle status returncode error) where
  once j s hj hs := by
    rw [World.changed_trail, World.noted_trail, Deed.settlements_settle]
    rcases World.record?_changed_cases _ _ _ _ hs with ⟨hij, hs⟩ | ⟨rfl, r', hr', rfl⟩
    · rw [if_neg hij]
      exact hu.once j s hj hs
    · obtain rfl : r = r' := Option.some.inj (hr.symm.trans hr')
      -- the record was open, so its first settlement is this one
      have hbefore : Deed.settlements i u.trail = [] := by
        rw [hu.once i r hj hr, hopen]
        rfl
      rw [if_pos rfl, hbefore, if_pos (r.settled_settle hstatus _ _),
        Record.settle_of_unsettled hopen]
      rfl
  unborn j hj := by
    rw [World.changed_length, World.noted_state] at hj
    -- a record that is not there is not the one that is settled
    have hij : i ≠ j := Nat.ne_of_lt (Nat.lt_of_lt_of_le (World.lt_of_record? hr) hj)
    rw [World.changed_trail, World.noted_trail, Deed.settlements_settle, if_neg hij]
    exact hu.unborn j hj

theorem Step.tally (hs : Step h F ok u v) (hu : Tally old u) : Tally old v := by
  cases hs with
  -- settling a record is no call
  | act _ hadmits =>
    refine hu.step rfl ?_ rfl fun j s hs => ⟨s, hs, rfl, rfl⟩
    intro j status returncode error heq
    subst heq
    exact hadmits
  | enlist _ => exact hu.enlist _ _
  -- a record that is given a process keeps its outcome
  | launched _ _ _ _ _ =>
    refine hu.step rfl (by simp) (World.changed_length ..) fun j s hs => ?_
    rcases World.record?_changed_cases _ _ _ _ hs with ⟨_, hs⟩ | ⟨rfl, r, hr, rfl⟩
    · exact ⟨s, hs, rfl, rfl⟩
    · exact ⟨r, hr, rfl, rfl⟩
  | report hr _ hf => exact hu.report hr hf
  | settle _ hr hopen hstatus _ => exact hu.settle _ _ hr hopen hstatus

theorem Path.tally (hp : Path h F ok u v) (hu : Tally old u) : Tally old v :=
  hp.invariant (fun hs => hs.tally) hu

/-- Making sure that there is a client settles nothing. -/
theorem tally_atBuild [Seconds τ] (y : Yard τ σ π) (fleet : Fleet τ σ π) :
    Tally (SettledAt fleet.records) (atBuild y fleet).2 := by
  obtain ⟨hrecords, hbuilds⟩ := atBuild_records y fleet
  rw [← hrecords]
  refine tally_of_nothing fun i => List.filterMap_eq_nil_iff.2 fun d hd => ?_
  cases d with
  | settle j status returncode error => exact absurd (hbuilds _ hd) id
  | _ => rfl

end Fleet

end BrokerLoad
