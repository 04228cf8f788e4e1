import BrokerLoad.Proofs.Fleet.Loops
import Mathlib.Data.List.Forall2

/-!
# Rounds at every position

When no round of a loop fails, every position gets its round, one after the other. A round works on
its own record and leaves the others alone, so what it found there is what stood there before the
loop, and what it left there is what stands there afterwards. The deeds of the loop are those of its
rounds in a row.

## Main definitions

* `Fleet.Completes`: the contract of a part of a run that does not fail.
* `Fleet.InTurn`: rounds at some positions, in a row.
* `Fleet.Local`: a relation of rounds that work on their own record.

## Main statements

* `Fleet.forEach_completes`: a loop of rounds that do not fail.
* `Fleet.InTurn.apart`: what a loop leaves at each position is what its round there left.
-/

namespace BrokerLoad

variable {τ σ π α β : Type}

namespace Fleet

/-! ## §1 Parts that do not fail -/

/-- From every world with `P` the part ends with a value, and with `Q`. -/
def Completes (P : World τ σ π → Prop) (a : Act τ σ π α) (Q : α → World τ σ π → Prop) : Prop :=
  a.Meets P Q (Action.Faulty fun _ _ => False)

variable {h : Host τ σ π} {u v w : World τ σ π} {P : World τ σ π → Prop}
  {Q : α → World τ σ π → Prop}

namespace Completes

theorem run {a : Act τ σ π α} (ha : Completes P a Q) (hw : P w) :
    ∃ x u, Action.runFrom a w = (.ok x, u) ∧ Q x u := by
  have hends := ha w hw
  cases hrun : Action.runFrom a w with
  | mk outcome u =>
    rw [hrun] at hends
    cases outcome with
    | ok x => exact ⟨x, u, rfl, hends⟩
    | error stop =>
      -- neither a fault nor a lack of fuel is allowed
      cases stop with
      | fault f => exact hends.elim
      | outOfFuel => exact hends.elim

/-- What is known of the end of a part holds when it is known to end with a value. -/
theorem turns {a : Act τ σ π α} {R : α → World τ σ π → Prop} (ha : Completes P a R)
    (hturns : Turns h w a Q) (hw : P w) : ∃ x u, Action.runFrom a w = (.ok x, u) ∧ Q x u ∧ R x u := by
  obtain ⟨x, u, hrun, hR⟩ := ha.run hw
  have hends := hturns w rfl
  rw [hrun] at hends
  exact ⟨x, u, hrun, hends.2, hR⟩

theorem of_run {a : Act τ σ π α} {x : α} (hrun : Action.runFrom a w = (.ok x, u)) (hQ : Q x u) :
    Completes (· = w) a Q := by
  intro _ heq
  subst heq
  rw [hrun]
  exact hQ

theorem bind {R : β → World τ σ π → Prop} {x : Act τ σ π β} {f : β → Act τ σ π α}
    (hx : Completes P x R) (hf : ∀ b, Completes (R b) (f b) Q) : Completes P (x >>= f) Q :=
  Action.Meets.bind hx hf

theorem recordAt? {i : Nat} :
    Completes P (Fleet.recordAt? i) fun found w => P w ∧ w.record? i = found :=
  fun _ hw => ⟨hw, rfl⟩

/-- A call that is answered. -/
theorem act {d : Deed τ π} {f : σ → Except Fault α × σ}
    (hf : ∀ w, P w → ∃ a s, f w.state.env = (.ok a, s) ∧ Q a (w.after d s)) :
    Completes P (Fleet.act d f) Q := by
  intro w hw
  obtain ⟨a, s, hanswer, hQ⟩ := hf w hw
  rw [act_run, hanswer]
  exact hQ

end Completes

/-- A call that is no refusal gives a value on a machine that answers. -/
theorem answered {F : Fates σ π} {ok : Deed τ π → Prop} (hanswers : h.Answers F ok) {d : Deed τ π}
    {f : σ → Except Fault α × σ} (hf : ∀ s, h.perform d s = bare (f s)) (hok : ok d) {s : σ}
    (hadmits : h.Admits F s d) (hhandles : ∀ g, d.handles g = false) :
    ∃ a t, f s = (.ok a, t) := by
  cases hanswer : f s with
  | mk answer t =>
    cases answer with
    | ok a => exact ⟨a, t, rfl⟩
    | error g =>
      have herror : (h.perform d s).1 = .error g := by
        rw [hf, hanswer]
        rfl
      exact absurd ((hhandles g).symm.trans (hanswers d s g hok hadmits herror)) Bool.false_ne_true

/-! ## §2 Loops over positions -/

/-- Rounds at some positions, one after the other. -/
inductive InTurn (Q : Nat → World τ σ π → World τ σ π → Prop) :
    List Nat → World τ σ π → World τ σ π → Prop where
  | nil {w : World τ σ π} : InTurn Q [] w w
  | cons {i : Nat} {rest : List Nat} {w v u : World τ σ π} (hround : Q i w v)
      (hrest : InTurn Q rest v u) : InTurn Q (i :: rest) w u

/-- A round works on the record at its position and on no other. -/
def Local (Q : Nat → World τ σ π → World τ σ π → Prop) : Prop :=
  ∀ i w u, Q i w u → ∀ j, j ≠ i → u.record? j = w.record? j

variable {Q : Nat → World τ σ π → World τ σ π → Prop} {positions : List Nat}

/-- A loop of rounds that do not fail and keep what the next ones need. -/
theorem forEach_completes {f : Nat → Act τ σ π Unit} {P : World τ σ π → Prop}
    (hf : ∀ i ∈ positions, ∀ w, P w → ∃ u, Action.runFrom (f i) w = (.ok (), u) ∧ Q i w u ∧ P u)
    (hw : P w) :
    ∃ u, Action.runFrom (forEach f positions) w = (.ok (), u) ∧ InTurn Q positions w u ∧ P u := by
  induction positions generalizing w with
  | nil => exact ⟨w, rfl, .nil, hw⟩
  | cons i rest ih =>
    obtain ⟨hi, hrest⟩ := List.forall_mem_cons.1 hf
    obtain ⟨v, hrun, hround, hv⟩ := hi w hw
    obtain ⟨u, hruns, hrounds, hu⟩ := ih hrest hv
    refine ⟨u, ?_, .cons hround hrounds, hu⟩
    simp only [forEach, Action.runFrom_bind, hrun]
    exact hruns

theorem exists_of_forall₂ {R : α → β → Prop} {xs : List α} {ys : List β}
    (h : List.Forall₂ R xs ys) {x : α} (hx : x ∈ xs) : ∃ y ∈ ys, R x y := by
  induction h with
  | nil => exact absurd hx List.not_mem_nil
  | @cons a b _ _ hab _ ih =>
    rcases List.mem_cons.1 hx with rfl | hx
    · exact ⟨b, List.mem_cons_self .., hab⟩
    · obtain ⟨y, hy, hxy⟩ := ih hx
      exact ⟨y, List.mem_cons_of_mem _ hy, hxy⟩

/-- At every position a loop leaves what its round there left, and the round found there what the
loop found. Everywhere else the loop changes nothing. The deeds of the rounds follow one another. -/
theorem InTurn.apart {D : Nat → Option (Record τ π) → Option (Record τ π) → List (Deed τ π) → Prop}
    (hlocal : Local Q)
    (hround : ∀ i w u, Q i w u → ∃ deeds, u.history = w.history ++ deeds ∧
      D i (w.record? i) (u.record? i) deeds)
    (hnodup : positions.Nodup) (h : InTurn Q positions w u) :
    (∀ j, j ∉ positions → u.record? j = w.record? j) ∧
    ∃ parts, u.history = w.history ++ parts.flatten ∧
      List.Forall₂ (fun i deeds => D i (w.record? i) (u.record? i) deeds) positions parts := by
  -- induction on the rounds: the later ones touch neither the first record nor what is no position
  induction h with
  | nil => exact ⟨fun _ _ => rfl, [], by simp, .nil⟩
  | @cons i rest w v u hfirst _ ih =>
    obtain ⟨hi, hrest⟩ := List.nodup_cons.1 hnodup
    obtain ⟨hkept, parts, hparts, hall⟩ := ih hrest
    obtain ⟨deeds, hdeeds, hD⟩ := hround i w v hfirst
    have hbefore : ∀ j ∈ rest, v.record? j = w.record? j :=
      fun j hj => hlocal i w v hfirst j fun heq => hi (heq ▸ hj)
    refine ⟨?_, deeds :: parts, ?_, .cons ?_ ?_⟩
    · intro j hj
      obtain ⟨hne, hj⟩ := not_or.1 (mt List.mem_cons.2 hj)
      rw [hkept j hj, hlocal i w v hfirst j hne]
    · rw [hparts, hdeeds, List.flatten_cons, List.append_assoc]
    · rw [hkept i hi]
      exact hD
    · refine (List.forall₂_and_left _ _ |>.2 ⟨fun j hj => hj, hall⟩).imp ?_
      intro j part hyp
      obtain ⟨hj, hD⟩ := hyp
      rw [← hbefore j hj]
      exact hD

/-! ## §3 Histories, and the positions of a role -/

theorem World.history_after (w : World τ σ π) (d : Deed τ π) (env : σ) :
    (w.after d env).history = w.history ++ [d] := by
  simp [Traced.history]

/-- The positions of the records of a role, in the order of the records. -/
def World.positionsOf (w : World τ σ π) (role : Role) : List Nat :=
  (List.range w.state.records.length).filter fun i => (w.record? i).map (·.role) == some role

theorem positionsOf_eq (role : Role) (w : World τ σ π) :
    Action.runFrom (positionsOf role) w = (.ok (w.positionsOf role), w) := rfl

theorem World.nodup_positionsOf (w : World τ σ π) (role : Role) : (w.positionsOf role).Nodup :=
  List.nodup_range.filter _

theorem World.mem_positionsOf (w : World τ σ π) {role : Role} {i : Nat} :
    i ∈ w.positionsOf role ↔ ∃ r, w.record? i = some r ∧ r.role = role := by
  simp only [positionsOf, List.mem_filter, List.mem_range, beq_iff_eq, Option.map_eq_some_iff]
  constructor
  · exact fun h => h.2
  · intro hyp
    obtain ⟨r, hr, hrole⟩ := hyp
    exact ⟨World.lt_of_record? hr, r, hr, hrole⟩

/-! ## §4 Rounds and their records -/

section Rounds

variable [Seconds τ] {y : Yard τ σ π} {role : Role} {heard : Option String → Prop} {e : Exit π}
  {r s : Record τ π} {p : π} {i : Nat} {deadline : τ}

/-- The deeds that settle a record by the exit of its process: it is settled once, and besides only
remarks are noted. -/
def Closing (role : Role) (heard : Option String → Prop) (e : Exit π) (i : Nat)
    (r s : Record τ π) (deeds : List (Deed τ π)) : Prop :=
  ∃ error before later, s = e.closed role r error ∧
    deeds = before ++ .settle i s.status e.code error :: later ∧
    ∀ d ∈ before ++ later, d.Remarks heard

theorem Closes.closing (hu : Closes role heard e i r v u) (hr : v.record? i = some r) :
    ∃ s deeds, u.record? i = some s ∧ u.history = v.history ++ deeds ∧
      Closing role heard e i r s deeds := by
  obtain ⟨error, before, later, hrecords, htrail, hbefore, hlater⟩ := hu.settled
  refine ⟨e.closed role r error,
    before.reverse ++ .settle i (e.closed role r error).status e.code error :: later.reverse,
    ?_, ?_, error, before.reverse, later.reverse, rfl, rfl, ?_⟩
  · rw [World.record?, hrecords]
    exact List.getElem?_set_self (World.lt_of_record? hr)
  -- the trail has the latest deed first
  · simp [Traced.history, htrail]
  · intro d hd
    rcases List.mem_append.1 hd with hd | hd
    · exact hbefore d (List.mem_reverse.1 hd)
    · exact hlater d (List.mem_reverse.1 hd)

theorem Closing.settled {deeds : List (Deed τ π)} (h : Closing role heard e i r s deeds) :
    s.settled = true := by
  obtain ⟨error, _, _, rfl, _⟩ := h
  exact e.settled_closed _ _ _

theorem Closing.not_mem_kill {deeds : List (Deed τ π)} (h : Closing role heard e i r s deeds)
    (q : π) : .kill q ∉ deeds := by
  obtain ⟨error, before, later, _, rfl, hremarks⟩ := h
  intro hkill
  rcases List.mem_append.1 hkill with hkill | hkill
  · exact hremarks _ (List.mem_append_left _ hkill)
  · rcases List.mem_cons.1 hkill with hkill | hkill
    · cases hkill
    · exact hremarks _ (List.mem_append_right _ hkill)

theorem Closes.others (hu : Closes role heard e i r v u) (j : Nat) (hj : j ≠ i) :
    u.record? j = v.record? j := by
  obtain ⟨_, _, _, hrecords, _⟩ := hu.settled
  rw [World.record?, hrecords]
  exact List.getElem?_set_ne hj.symm

/-- Collecting ends just so whenever the machine answers so. -/
theorem Collected.run {found : Option (Option String × ExitCode)}
    (hv : Collected y p deadline w found v) :
    Action.runFrom (collect y p deadline) w = (.ok found, v) := by
  cases hv with
  | ended hpoll hcollect =>
    simp only [collect, Action.runFrom_bind, act_run, hpoll, World.after_env, hcollect,
      Action.runFrom_pure]
  | inTime hpoll hnow hcollect =>
    simp only [remaining] at hcollect ⊢
    simp only [collect, now, Action.runFrom_bind, act_run, hpoll, World.after_env, hnow, hcollect,
      Action.runFrom_pure]
  | atLast hpoll hnow hcollect hpoll' hcollect' =>
    simp only [remaining] at hcollect ⊢
    simp only [collect, now, Action.runFrom_bind, act_run, hpoll, World.after_env, hnow, hcollect,
      hpoll', hcollect', Action.runFrom_pure]
  | running hpoll hnow hcollect hpoll' =>
    simp only [remaining] at hcollect ⊢
    simp only [collect, now, Action.runFrom_bind, act_run, hpoll, World.after_env, hnow, hcollect,
      hpoll', Action.runFrom_pure]

theorem local_requested (y : Yard τ σ π) :
    Local fun i w u => ∃ asked, Requested y i w asked u := by
  intro i w u hyp j _
  obtain ⟨asked, hu⟩ := hyp
  exact World.record?_congr hu.records j

theorem local_stopped (y : Yard τ σ π) (deadline : τ) : Local (Stopped y deadline) := by
  intro i w u hu j hj
  cases hu with
  | passed _ => rfl
  | closed _ _ _ hreleased hcloses =>
    rw [hcloses.others j hj, World.record?_congr hreleased.records.1]

theorem local_joined (y : Yard τ σ π) (deadline : τ) : Local (Joined y deadline) := by
  intro i w u hu j hj
  cases hu with
  | passed _ => rfl
  | closed _ _ _ hparted hcloses =>
    rw [hcloses.others j hj, World.record?_congr hparted.records.1]

end Rounds

end Fleet

end BrokerLoad
