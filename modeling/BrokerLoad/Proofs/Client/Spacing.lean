import BrokerLoad.Proofs.Client.Bounds
import Mathlib.Data.Int.Interval

/-!
# The spacing of sends

Lag can strike in any pump, sleep or send and push the clock over many deadlines at once. A
publisher replays at most one of them: after a send the next index is at least that of the last
deadline due, so the send before was over by the deadline after the next one. That, carried on to
all later sends, keeps any window of a run from holding more sends than deadlines.

## Main definitions

* `Publisher.Precedes`: how an earlier send lies before a later one.
* `Publisher.Spaced`: what holds of the sends of a run.

## Main statements

* `Publisher.Laps.precedes`: the sends of a loop lie one before the other.
* `Publisher.spaced_of_precedes`: so there is no burst among them, and they are not too many.
* `Publisher.run_spaced`: the sends of a run are spaced.
-/

namespace BrokerLoad

variable {σ η : Type}

/-- Growing indices from zero up to a bound are no more than the bound. -/
theorem length_le_of_pairwise_lt {indices : List Int} {bound : Int}
    (hgrow : indices.Pairwise (· < ·)) (hrange : ∀ k ∈ indices, 0 ≤ k ∧ k < bound) :
    indices.length ≤ bound.toNat := by
  have hnodup : indices.Nodup := hgrow.imp ne_of_lt
  have hsubset : indices.toFinset ⊆ Finset.Ico 0 bound := fun k hk =>
    Finset.mem_Ico.mpr (hrange k (List.mem_toFinset.mp hk))
  calc indices.length = indices.toFinset.card := (List.toFinset_card_of_nodup hnodup).symm
    _ ≤ (Finset.Ico 0 bound).card := Finset.card_le_card hsubset
    _ = bound.toNat := by rw [Int.card_Ico, sub_zero]

namespace Publisher

variable {w : Surroundings Rat σ η} {plan : Plan Rat} {tuning : Tuning Rat}
  {schedule : Schedule Rat} {p q r : Progress Rat} {x y : Stint Rat} {sends : List (Stint Rat)}

/-! ## §1 One send before another -/

/-- A send lies before another one: its index is smaller, and it was over by the deadline after that
of the other one. -/
structure Precedes (schedule : Schedule Rat) (x y : Stint Rat) : Prop where
  index : x.index < y.index
  before : x.finish < schedule.start + (y.index + 1) * schedule.interval

/-- After a send the next deadline is at most one that is overdue. -/
theorem over_lt_of_advanced (hinterval : 0 < schedule.interval) {now : Rat}
    (hstart : schedule.start ≤ now) (hindex : 0 ≤ q.index)
    (h : q.advanced schedule now = .ok r) :
    now < schedule.start + (r.index + 1) * schedule.interval := by
  rw [q.advanced_rat schedule hstart hindex] at h
  have hr : r.index = max (q.index + 1) ⌊(now - schedule.start) / schedule.interval⌋ := by
    rw [← Except.ok.inj h, Progress.atDeadline]
  have hfloor : ((⌊(now - schedule.start) / schedule.interval⌋ : Int) : Rat) ≤ r.index := by
    rw [hr]
    exact_mod_cast le_max_right _ _
  have hlt : now - schedule.start < (r.index + 1) * schedule.interval := by
    rw [← div_lt_iff₀ hinterval]
    exact (Int.lt_floor_add_one _).trans_le (add_le_add_left hfloor 1)
  linarith

/-- The sends of a loop lie one before the other, and none has a smaller index than the loop began
with. -/
theorem Laps.precedes (hinterval : 0 < schedule.interval) {fuel : Nat} {env last : σ}
    {stints : List (Stint Rat)} {result : Except Stop (Progress Rat)}
    (h : Laps w plan tuning schedule fuel p env stints result last)
    (hforward : ∀ x ∈ stints, x.Forward) (hp : OnSchedule schedule p (w.timer.now env)) :
    (∀ x ∈ stints.filter Stint.isSend, p.index ≤ x.index) ∧
      (stints.filter Stint.isSend).Pairwise (Precedes schedule) := by
  induction h with
  | spent => exact ⟨List.forall_mem_nil _, .nil⟩
  | finished _ => exact ⟨List.forall_mem_nil _, .nil⟩
  | cut _ _ => exact ⟨List.forall_mem_nil _, .nil⟩
  | late _ _ _ => exact ⟨List.forall_mem_nil _, .nil⟩
  | unsent _ _ _ =>
    exact ⟨List.forall_mem_singleton.mpr le_rfl, List.pairwise_singleton _ _⟩
  | astray _ _ _ _ =>
    exact ⟨List.forall_mem_singleton.mpr le_rfl, List.pairwise_singleton _ _⟩
  | woken _ _ _ => exact ⟨List.forall_mem_nil _, .nil⟩
  | slept _ _ _ _ ih =>
    obtain ⟨hpump, hrest⟩ := List.forall_mem_cons.mp hforward
    obtain ⟨hnap, hmore⟩ := List.forall_mem_cons.mp hrest
    exact ih hmore ((hp.later hpump).later hnap)
  | @sent fuel p q r env stints result last _ _ hafter hadvanced _ ih =>
    obtain ⟨hpump, hrest⟩ := List.forall_mem_cons.mp hforward
    obtain ⟨hsend, hmore⟩ := List.forall_mem_cons.mp hrest
    have hlater := (hp.later hpump).later hsend
    have hindex : q.index = p.index := afterSend_index hafter
    have hgrows : p.index < r.index := by
      have := (advanced_eq hadvanced).2.1
      omega
    have hover := over_lt_of_advanced hinterval hlater.started
      (hlater.index.trans_eq hindex.symm) hadvanced
    obtain ⟨hfloor, hpairs⟩ := ih hmore (hlater.advanced hafter hadvanced)
    let x := sendStint w p (pumped w p env tuning) plan
    change (∀ y ∈ x :: stints.filter Stint.isSend, _) ∧ (x :: stints.filter Stint.isSend).Pairwise _
    refine ⟨List.forall_mem_cons.mpr ⟨le_rfl, fun y hy => hgrows.le.trans (hfloor y hy)⟩,
      List.pairwise_cons.mpr ⟨fun y hy => ⟨hgrows.trans_le (hfloor y hy), hover.trans_le ?_⟩,
        hpairs⟩⟩
    have hle : (r.index : Rat) ≤ y.index := by exact_mod_cast hfloor y hy
    gcongr

/-! ## §2 Sends one before another -/

/-- What holds of the sends of a run that starts at `start`. -/
structure Spaced (plan : Plan Rat) (start : Rat) (sends : List (Stint Rat)) : Prop where
  /-- The indices grow. -/
  increasing : sends.Pairwise (·.index < ·.index)
  /-- No send is early. -/
  due : ∀ x ∈ sends, start + x.index * plan.interval ≤ x.time
  /-- There is no burst: two sends apart, only one of them may be late. -/
  apart : ∀ j n (_ : 2 ≤ n) (h : j + n < sends.length),
    sends[j].time + (n - 2) * plan.interval < sends[j + n].time
  /-- By any time there were no more sends than deadlines. -/
  count : ∀ t, sends.countP (fun x => decide (x.time ≤ t)) ≤
    (⌊(t - start) / plan.interval⌋ + 1).toNat
  /-- There are no more sends than deadlines before the end of the duration. -/
  total : sends.length ≤ ⌈plan.duration / plan.interval⌉₊

/-- From one send to a later one the index grows by one for each. -/
theorem index_add_le (hgrow : sends.Pairwise (·.index < ·.index)) (j n : Nat)
    (h : j + n < sends.length) : sends[j].index + n ≤ sends[j + n].index := by
  induction n with
  | zero => exact (add_zero _).le
  | succ n ih =>
    have hstep : sends[j + n].index < sends[j + (n + 1)].index :=
      List.pairwise_iff_getElem.mp hgrow (j + n) (j + (n + 1)) _ h (by omega)
    have hbefore := ih (by omega)
    push_cast
    omega

/-- Sends with growing indices that are all below a bound. -/
theorem length_sends_le {bound : Int} (hgrow : sends.Pairwise (·.index < ·.index))
    (hrange : ∀ x ∈ sends, 0 ≤ x.index ∧ x.index < bound) : sends.length ≤ bound.toNat := by
  rw [← List.length_map (f := Stint.index)]
  refine length_le_of_pairwise_lt (List.pairwise_map.mpr hgrow) fun k hk => ?_
  obtain ⟨x, hx, rfl⟩ := List.mem_map.mp hk
  exact hrange x hx

/-- Sends that lie one before the other are spaced. -/
theorem spaced_of_precedes {start : Rat}
    (hprecedes : sends.Pairwise (Precedes (scheduleOf plan start)))
    (htimely : ∀ x ∈ sends, x.Timely plan start) (hforward : ∀ x ∈ sends, x.Forward)
    (hsends : ∀ x ∈ sends, x.isSend = true) : Spaced plan start sends := by
  have hinterval : 0 < plan.interval := of_decide_eq_true plan.interval_pos
  have hgrow : sends.Pairwise (·.index < ·.index) := hprecedes.imp Precedes.index
  have hearly : ∀ x ∈ sends, start + x.index * plan.interval ≤ x.time := fun x hx =>
    (htimely x hx).deadline ▸ (htimely x hx).due (hsends x hx)
  refine ⟨hgrow, hearly, fun j n hn h => ?_, fun t => ?_, ?_⟩
  · -- the next send but one is not before its deadline, and the deadlines go on from there
    have hover : sends[j].finish < start + (sends[j + 1].index + 1) * plan.interval :=
      (List.pairwise_iff_getElem.mp hprecedes j (j + 1) (by omega) (by omega) (by omega)).before
    have hindex : sends[j + 1].index + (n - 1 : Nat) ≤ sends[j + 1 + (n - 1)].index :=
      index_add_le hgrow (j + 1) (n - 1) (by omega)
    have hlast : j + 1 + (n - 1) = j + n := by omega
    simp only [hlast] at hindex
    have hcast : (sends[j + 1].index : Rat) + (n - 1) ≤ sends[j + n].index := by
      have hone : ((n - 1 : Nat) : Rat) = n - 1 := by
        rw [Nat.cast_sub (by omega), Nat.cast_one]
      rw [← hone]
      exact_mod_cast hindex
    calc sends[j].time + (n - 2) * plan.interval
        ≤ sends[j].finish + (n - 2) * plan.interval := by
          gcongr
          exact hforward _ (List.getElem_mem _)
      _ < start + (sends[j + 1].index + 1) * plan.interval + (n - 2) * plan.interval := by
          gcongr
      _ = start + (sends[j + 1].index + (n - 1)) * plan.interval := by ring
      _ ≤ start + sends[j + n].index * plan.interval := by gcongr
      _ ≤ sends[j + n].time := hearly _ (List.getElem_mem _)
  · rw [List.countP_eq_length_filter]
    refine length_sends_le (hgrow.filter _) fun x hx => ?_
    obtain ⟨hmem, hbefore⟩ := List.mem_filter.mp hx
    refine ⟨(htimely x hmem).index, Int.lt_add_one_iff.mpr (Int.le_floor.mpr ?_)⟩
    rw [le_div_iff₀ hinterval]
    have := hearly x hmem
    have := of_decide_eq_true hbefore
    linarith
  · have hceil : (⌈plan.duration / plan.interval⌉).toNat = ⌈plan.duration / plan.interval⌉₊ :=
      Int.ceil_toNat _
    rw [← hceil]
    refine length_sends_le hgrow fun x hx => ⟨(htimely x hx).index, Int.lt_ceil.mpr ?_⟩
    rw [lt_div_iff₀ hinterval]
    have := hearly x hx
    have := (htimely x hx).begins
    linarith

theorem Spaced.nil (plan : Plan Rat) (start : Rat) : Spaced plan start [] where
  increasing := .nil
  due := List.forall_mem_nil _
  apart _ _ _ h := absurd h (Nat.not_lt_zero _)
  count _ := Nat.zero_le _
  total := Nat.zero_le _

/-- A publisher on any surroundings, with stints that last for any times, and whatever its tuning
is. Its requests to publish are the sends among its stints, and as long as the clock never moves
backwards, these are spaced. -/
theorem run_spaced (quiet : w.session.Quiet) (plan : Plan Rat) (tuning : Tuning Rat) (fuel : Nat)
    (s : Traced (Note Rat) (Client σ η)) :
    let start := w.timer.now (Client.opened w s).state.env
    let e := Action.runFrom (run w plan tuning fuel) s
    ∃ stints, Ran w plan tuning fuel s stints e.1 e.2 ∧
      Client.publishes e.2 =
        Client.publishes s ++ (stints.filter Stint.isSend).map (·.deal.note) ∧
      ((∀ x ∈ stints, x.Forward) → Spaced plan start (stints.filter Stint.isSend)) := by
  intro start e
  obtain ⟨stints, hran⟩ := run_ran (w := w) plan tuning fuel s
  refine ⟨stints, hran, hran.publishes quiet, fun hforward => ?_⟩
  rcases hran.laps with ⟨rfl, -⟩ | ⟨first, result, last, hfirst, hlaps, -⟩
  · exact .nil _ _
  have hbegin := OnSchedule.begin hfirst
  have hsends : ∀ x ∈ stints.filter Stint.isSend, x ∈ stints ∧ x.isSend = true := fun x hx =>
    List.mem_filter.mp hx
  exact spaced_of_precedes (hlaps.precedes (of_decide_eq_true plan.interval_pos) hforward hbegin).2
    (fun x hx => hlaps.timely hforward hbegin x (hsends x hx).1)
    (fun x hx => hforward x (hsends x hx).1) (fun x hx => (hsends x hx).2)

/-- With half a second of lag in everything a run of eight seconds sends no more than four times. -/
theorem hindered_run_spaced :
    ∃ stints, Ran (Surroundings.lagging (1 / 2) refusedThird) eightSeconds .standard 20
        ⟨{ env := (10, 0), kept := () }, []⟩ stints hinderedRun.1 hinderedRun.2 ∧
      Spaced eightSeconds 10 (stints.filter Stint.isSend) ∧
      (stints.filter Stint.isSend).length ≤ 4 := by
  obtain ⟨stints, hran, -, hspaced⟩ :=
    run_spaced (Surroundings.lagging_quiet (1 / 2) refusedThird) eightSeconds .standard 20
      ⟨{ env := (10, 0), kept := () }, []⟩
  have hforward := hran.forward (Surroundings.lagging_forward (by decide +kernel) refusedThird)
  exact ⟨stints, hran, hspaced hforward, (hspaced hforward).total.trans_eq (by decide +kernel)⟩

end Publisher

end BrokerLoad
