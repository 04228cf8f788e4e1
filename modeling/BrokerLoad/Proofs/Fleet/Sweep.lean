import BrokerLoad.Proofs.Fleet.Phases

/-!
# The outline of a run and its cleanup

The outline of a run is what it did in the sight of the launcher, the processes and the client's
build: its calls without the clock readings, and which client each launch was for. The cleanup of a
run kills the processes of the records that are still open, in the order of the records, and settles
these records as failures. It touches nothing else.

## Main definitions

* `Fleet.World.outline`: the outline of a run.
* `Fleet.Sweeps`: what the cleanup makes of a record.
* `Fleet.leftOver`: the processes that the cleanup kills.

## Main statements

* `Fleet.killUnsettled_meets`: what the cleanup does, if it is not stopped itself.
-/

namespace BrokerLoad

variable {τ σ π : Type}

/-! ## §1 Outlines -/

/-- Whether a deed belongs to the outline of a run. -/
def Deed.visible : Deed τ π → Bool
  | .log _ | .misprint _ | .readClock | .read .. | .settle .. => false
  | _ => true

theorem Deed.Logs.invisible {d : Deed τ π} (h : d.Logs) : d.visible = false := by
  cases d with
  | log _ | misprint _ => rfl
  | _ => exact absurd h id

namespace Fleet

/-- The outline of a run. -/
def World.outline (w : World τ σ π) : List (Deed τ π) := w.history.filter Deed.visible

theorem World.outline_append {u w : World τ σ π} (new : List (Deed τ π))
    (h : u.trail = new ++ w.trail) :
    u.outline = w.outline ++ new.reverse.filter Deed.visible := by
  simp [World.outline, Traced.history, h]

theorem World.outline_cons {u w : World τ σ π} {d : Deed τ π} (h : u.trail = d :: w.trail) :
    u.outline = w.outline ++ [d].filter Deed.visible :=
  World.outline_append [d] h

theorem World.outline_of_invisible {u w : World τ σ π} {d : Deed τ π} (h : u.trail = d :: w.trail)
    (hd : d.visible = false) : u.outline = w.outline := by
  simp [World.outline_cons h, hd]

theorem World.outline_of_visible {u w : World τ σ π} {d : Deed τ π} (h : u.trail = d :: w.trail)
    (hd : d.visible = true) : u.outline = w.outline ++ [d] := by
  simp [World.outline_cons h, hd]

/-! ## §2 The cleanup of one record -/

variable [Seconds τ] {y : Yard τ σ π} {w u : World τ σ π} {i : Nat}

/-- What the cleanup makes of a record: an open one that has a process becomes a failure, with the
exit code that the wait for the process gave; any other stays as it is. -/
inductive Sweeps (y : Yard τ σ π) (r : Record τ π) : Record τ π → Prop where
  | aborted {p : π} {code : ExitCode} {s t : σ} (hopen : r.settled = false)
      (hprocess : r.process = some p) (hcode : y.host.await p s = (.ok code, t)) :
      Sweeps y r { r with status := .failure, returncode := code, error := some "run aborted" }
  | kept (hidle : r.settled = true ∨ r.process = none) : Sweeps y r r

/-- The processes that the cleanup of some records kills. -/
def leftOver (records : List (Record τ π)) : List π :=
  records.filterMap fun r => if r.settled then none else r.process

/-- Killing a process and waiting for its end. -/
def killAndWait (p : π) : List (Deed τ π) := [.kill p, .await p none]

/-- What stops the cleanup: a kill that raises, or the wait after one. -/
inductive Halts (y : Yard τ σ π) : Stop → Prop where
  | kill {p : π} {s t : σ} {f : Fault} (hanswer : y.host.kill p s = (.error f, t)) :
      Halts y (.fault f)
  | await {p : π} {r s t : σ} {f : Fault} (hkilled : y.host.kill p r = (.ok (), s))
      (hanswer : y.host.await p s = (.error f, t)) : Halts y (.fault f)

/-- One record is swept, and nothing else changes. -/
structure SweepsAt (y : Yard τ σ π) (i : Nat) (r : Record τ π) (w u : World τ σ π) : Prop where
  record : ∃ s, Sweeps y r s ∧ ∀ j, u.record? j = if i = j then some s else w.record? j
  length : u.state.records.length = w.state.records.length
  outline : u.outline = w.outline ++ (leftOver [r]).flatMap killAndWait

theorem sweepsAt_kept {r : Record τ π} (hr : w.record? i = some r)
    (hidle : r.settled = true ∨ r.process = none) : SweepsAt y i r w w where
  record := by
    refine ⟨r, .kept hidle, fun j => ?_⟩
    split
    · rename_i hij
      rw [← hij, hr]
    · rfl
  length := rfl
  outline := by
    -- such a record counts for nothing among those that are left over
    have hnone : leftOver [r] = [] := by
      rcases hidle with hsettled | hfree
      · simp [leftOver, hsettled]
      · cases hsettled : r.settled <;> simp [leftOver, hsettled, hfree]
    simp [hnone]

/-- A record that is open and has a process is killed, waited for and settled. -/
theorem sweepsAt_aborted {r : Record τ π} {p : π} {code : ExitCode} {env env' : σ}
    (record : LogRecord) (hr : w.record? i = some r) (hopen : r.settled = false)
    (hprocess : r.process = some p) (hcode : y.host.await p env = (.ok code, env')) :
    SweepsAt y i r w
      (((((w.noted (.log record)).after (.kill p) env).after (.await p none) env').noted
        (.settle i .failure code (some "run aborted"))).changed i
          fun r => r.settle .failure code (some "run aborted")) where
  record := by
    refine ⟨_, .aborted hopen hprocess hcode, fun j => ?_⟩
    rw [World.record?_changed]
    split
    · rename_i hij
      subst hij
      simp [hr, Record.settle_of_unsettled hopen]
    · rfl
  length := by simp
  outline := by
    have hleft : leftOver [r] = [p] := by simp [leftOver, hopen, hprocess]
    rw [hleft]
    -- the log record and the settlement do not show
    exact World.outline_append [.settle i .failure code (some "run aborted"), .await p none,
      .kill p, .log record] rfl

theorem killOne_of_idle (y : Yard τ σ π) (hidle : Idle i w) :
    Action.runFrom (killOne y i) w = (.ok (), w) := by
  have hrecord : Action.runFrom (recordAt? i) w = (.ok (w.record? i), w) := rfl
  simp only [killOne, Action.runFrom_bind, hrecord]
  cases hr : w.record? i with
  | none => rfl
  | some r =>
    cases hopen : r.settled with
    | true =>
      simp only [hopen]
      rfl
    | false =>
      cases hprocess : r.process with
      | none =>
        simp only [hopen, hprocess]
        rfl
      | some p => exact absurd ⟨r, hr, hopen, hprocess⟩ (hidle p)

theorem killOne_meets (y : Yard τ σ π) {r : Record τ π} (hr : w.record? i = some r) :
    (killOne y i).Meets (· = w) (fun _ u => SweepsAt y i r w u) (fun stop _ => Halts y stop) := by
  intro v heq
  subst heq
  have hrecord : Action.runFrom (recordAt? i) v = (.ok (some r), v) := by
    rw [← hr]
    rfl
  simp only [killOne, Action.runFrom_bind, hrecord]
  -- the three kinds of records, and for the last one the two calls that may raise
  cases hopen : r.settled with
  | true => exact sweepsAt_kept hr (.inl hopen)
  | false =>
    cases hprocess : r.process with
    | none => exact sweepsAt_kept hr (.inr hprocess)
    | some p =>
      simp only [Action.runFrom_bind, log_run, act_run]
      cases hkilled : y.host.kill p _ with
      | mk killed env =>
        cases killed with
        | error f => exact .kill hkilled
        | ok _ =>
          simp only [World.after_env]
          cases hcode : y.host.await p env with
          | mk waited env' =>
            cases waited with
            | error f => exact .await hkilled hcode
            | ok code => exact sweepsAt_aborted _ hr hopen hprocess hcode

/-! ## §3 The cleanup of all records -/

omit [Seconds τ] in
theorem forEach_range_meets {f : Nat → Act τ σ π Unit} {I : Nat → World τ σ π → Prop}
    {E : Stop → World τ σ π → Prop} (first count : Nat)
    (hf : ∀ i, first ≤ i → i < first + count → (f i).Meets (I i) (fun _ => I (i + 1)) E) :
    (forEach f (List.range' first count)).Meets (I first) (fun _ => I (first + count)) E := by
  -- induction on how many positions are left, for any first one
  induction count generalizing first with
  | zero => exact Action.Meets.pure fun _ => id
  | succ count ih =>
    have hrest := ih (first + 1) fun i h1 h2 => hf i (by omega) (by omega)
    rw [Nat.add_right_comm, Nat.add_assoc] at hrest
    exact (hf first (Nat.le_refl _) (by omega)).bind fun _ => hrest

/-- The first `k` records are swept, and the others are as they were. -/
structure SweptUpTo (y : Yard τ σ π) (w : World τ σ π) (k : Nat) (u : World τ σ π) : Prop where
  length : u.state.records.length = w.state.records.length
  records : ∀ i r, w.record? i = some r → ∃ s, u.record? i = some s ∧
    if i < k then Sweeps y r s else s = r
  outline : u.outline = w.outline ++ (leftOver (w.state.records.take k)).flatMap killAndWait

theorem SweptUpTo.next {k : Nat} {v : World τ σ π} {r : Record τ π} (h : SweptUpTo y w k u)
    (hr : w.record? k = some r) (hv : SweepsAt y k r u v) : SweptUpTo y w (k + 1) v where
  length := hv.length.trans h.length
  records := by
    intro i r' hr'
    obtain ⟨s, hs, hothers⟩ := hv.record
    rw [hothers i]
    -- the record of this round, and the others
    by_cases hik : k = i
    · subst hik
      obtain rfl : r = r' := Option.some.inj (hr.symm.trans hr')
      exact ⟨s, if_pos rfl, by simpa using hs⟩
    · obtain ⟨s', hs', hswept⟩ := h.records i r' hr'
      refine ⟨s', by rw [if_neg hik, hs'], ?_⟩
      -- those before it were swept, those behind it were not
      by_cases hlt : i < k
      · rw [if_pos hlt] at hswept
        rwa [if_pos (by omega)]
      · rw [if_neg hlt] at hswept
        rwa [if_neg (by omega)]
  outline := by
    -- the processes that are left over are killed in the order of the records
    have htake : w.state.records.take (k + 1) = w.state.records.take k ++ [r] := by
      have hget : w.state.records[k]? = some r := hr
      rw [List.take_add_one, hget]
      rfl
    rw [hv.outline, h.outline, htake]
    simp [leftOver, List.filterMap_append, List.flatMap_append]

/-- The cleanup sweeps all records, one after the other. -/
theorem killUnsettled_meets (y : Yard τ σ π) (w : World τ σ π) :
    (killUnsettled y).Meets (· = w) (fun _ u => SweptUpTo y w w.state.records.length u)
      (fun stop _ => Halts y stop) := by
  have hone : ∀ k, 0 ≤ k → k < 0 + w.state.records.length →
      (killOne y k).Meets (SweptUpTo y w k) (fun _ => SweptUpTo y w (k + 1))
        (fun stop _ => Halts y stop) := by
    intro k _ hk u hu
    obtain ⟨r, hr⟩ : ∃ r, w.record? k = some r := ⟨_, List.getElem?_eq_getElem (by omega)⟩
    -- the record of this round is still as it was in the beginning
    obtain ⟨s, hs, hsame⟩ := hu.records k r hr
    rw [if_neg (Nat.lt_irrefl k)] at hsame
    subst hsame
    exact ((killOne_meets y hs) u rfl).mono (fun _ _ hv => hu.next hr hv) fun _ _ => id
  intro v heq
  subst heq
  simp only [killUnsettled, Action.runFrom_bind, Traced.runFrom_current]
  rw [List.range_eq_range']
  have hstart : SweptUpTo y v 0 v := by
    refine ⟨rfl, fun i r hr => ⟨r, hr, by simp⟩, by simp [leftOver]⟩
  have hloop := forEach_range_meets 0 v.state.records.length hone v hstart
  rwa [Nat.zero_add] at hloop

/-- A cleanup that is not stopped sweeps all records. -/
theorem atCleanup_swept {fleet : Fleet τ σ π} (hclean : (atCleanup y fleet).1 = .ok ()) :
    SweptUpTo y (atCut y fleet).2 (atCut y fleet).2.state.records.length (atCleanup y fleet).2 :=
  (killUnsettled_meets y (atCut y fleet).2 _ rfl).of_ok hclean

/-- Only its own calls stop the cleanup. -/
theorem atCleanup_halts {fleet : Fleet τ σ π} {stop : Stop}
    (hstop : (atCleanup y fleet).1 = .error stop) : Halts y stop :=
  (killUnsettled_meets y (atCut y fleet).2 _ rfl).of_error hstop

omit [Seconds τ] in
theorem leftOver_of_settled (h : ∀ role, w.Settled role) : leftOver w.state.records = [] := by
  apply List.filterMap_eq_nil_iff.2
  intro r hr
  obtain ⟨i, hi⟩ := List.mem_iff_getElem?.1 hr
  rw [if_pos (h r.role i r hi rfl)]

/-- The cleanup does nothing when no open record has a process. -/
theorem killUnsettled_of_idle (y : Yard τ σ π) (hidle : ∀ i, Idle i w) :
    Action.runFrom (killUnsettled y) w = (.ok (), w) := by
  have hloop : ∀ positions, Action.runFrom (forEach (killOne y) positions) w = (.ok (), w) := by
    intro positions
    -- induction on the positions: no round changes the world
    induction positions with
    | nil => rfl
    | cons i rest ih => simp only [forEach, Action.runFrom_bind, killOne_of_idle y (hidle i), ih]
  simp only [killUnsettled, Action.runFrom_bind, Traced.runFrom_current, hloop]

omit [Seconds τ] in
theorem idle_of_settled (h : ∀ role, w.Settled role) (i : Nat) : Idle i w := by
  intro p hp
  obtain ⟨r, hr, hopen, _⟩ := hp
  exact absurd (hopen.symm.trans (h r.role i r hr rfl)) Bool.false_ne_true

end Fleet

end BrokerLoad
