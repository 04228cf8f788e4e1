import BrokerLoad.Client.Schedule
import Mathlib.Algebra.Order.Floor.Ring
import Mathlib.Data.Rat.Floor
import Mathlib.Tactic.Linarith
import Mathlib.Tactic.Positivity
import Mathlib.Tactic.FieldSimp
import Mathlib.Tactic.Ring

/-!
# The ideal pace of a publisher

With exact times a publisher that loses nothing to waiting sends message after message at times that
depend only on the start, on the interval and on how long each send takes. After a send it turns to
the next deadline, or to the last one that has become due meanwhile, and sends when both the send
before is over and the deadline has come.

## Main definitions

* `Pace`: a start, an interval, and how long each send takes.
* `Pace.slot`: the index and the time of each send.

## Main statements

* `Pace.le_time`, `Pace.time_mono`: no send is early, and none before the one before it.
* `Pace.exists_count`: only so many sends begin before a given time.
* `Pace.time_of_prompt`: if no send takes longer than the interval, every deadline is met.
-/

namespace BrokerLoad

/-- A start, an interval, and how long each send takes. -/
structure Pace where
  start : Rat
  interval : Rat
  latency : Nat → Rat
  interval_pos : 0 < interval
  latency_nonneg : ∀ j, 0 ≤ latency j

/-- The deadline that a message is sent for, by its index, and the time at which it is sent. -/
structure Slot where
  index : Int
  time : Rat

namespace Pace

variable (p : Pace)

/-- When message `k` is due. -/
def deadline (k : Int) : Rat := p.start + k * p.interval

/-- The slot after a send that is over at `done`. -/
def next (k : Int) (done : Rat) : Slot :=
  let index := max (k + 1) ⌊(done - p.start) / p.interval⌋
  ⟨index, max done (p.deadline index)⟩

/-- The slot of each send. -/
def slot : Nat → Slot
  | 0 => ⟨0, p.start⟩
  | j + 1 => p.next (slot j).index ((slot j).time + p.latency j)

/-- The time of each send. -/
def time (j : Nat) : Rat := (p.slot j).time

/-- The schedule of a pace. -/
def schedule : Schedule Rat := ⟨p.start, p.interval, decide_eq_true p.interval_pos⟩

/-! ## §1 No send is early -/

theorem index_ge (j : Nat) : (j : Int) ≤ (p.slot j).index := by
  induction j with
  | zero => exact le_rfl
  | succ j ih =>
    calc ((j + 1 : Nat) : Int) ≤ (p.slot j).index + 1 := by push_cast; omega
      _ ≤ (p.slot (j + 1)).index := le_max_left _ _

theorem time_le_succ (j : Nat) : p.time j + p.latency j ≤ p.time (j + 1) := le_max_left _ _

theorem time_mono : Monotone p.time :=
  monotone_nat_of_le_succ fun j =>
    (le_add_of_nonneg_right (p.latency_nonneg j)).trans (p.time_le_succ j)

theorem deadline_le_time (j : Nat) : p.deadline (p.slot j).index ≤ p.time j := by
  cases j with
  | zero => simp [time, slot, deadline]
  | succ j => exact le_max_right _ _

/-- No send is before the deadline of its own number. -/
theorem le_time (j : Nat) : p.deadline j ≤ p.time j := by
  have hindex : ((j : Int) : Rat) ≤ (p.slot j).index := by exact_mod_cast p.index_ge j
  calc p.deadline j ≤ p.deadline (p.slot j).index := by
        unfold deadline
        gcongr
        exact p.interval_pos.le
    _ ≤ p.time j := p.deadline_le_time j

/-- Only so many sends begin before a given time. -/
theorem exists_count (stop : Rat) : ∃ n, ∀ j, p.time j < stop ↔ j < n := by
  classical
  -- the deadlines grow beyond all bounds, and no send is before its deadline
  have hlate : ∃ j, stop ≤ p.time j := by
    have hj := Nat.le_ceil ((stop - p.start) / p.interval)
    rw [div_le_iff₀ p.interval_pos] at hj
    refine ⟨⌈(stop - p.start) / p.interval⌉₊, le_trans ?_ (p.le_time _)⟩
    unfold deadline
    push_cast
    linarith
  refine ⟨Nat.find hlate, fun j => ?_⟩
  constructor
  · intro hj
    by_contra hle
    exact absurd ((Nat.find_spec hlate).trans (p.time_mono (not_lt.mp hle))) (not_le.mpr hj)
  · intro hj
    exact not_le.mp (Nat.find_min hlate hj)

/-! ## §2 Prompt sends -/

/-- After a send that is over by the next deadline the slot is at that deadline. -/
theorem next_of_prompt (j : Nat) {done : Rat} (hprompt : done ≤ p.deadline (j + 1)) :
    p.next j done = ⟨j + 1, p.deadline (j + 1)⟩ := by
  have hfloor : ⌊(done - p.start) / p.interval⌋ ≤ (j : Int) + 1 := by
    rw [← Int.cast_le (R := Rat)]
    refine (Int.floor_le _).trans ?_
    rw [div_le_iff₀ p.interval_pos]
    unfold deadline at hprompt
    linarith
  simp only [next, max_eq_left hfloor, max_eq_right hprompt]

/-- If no send takes longer than the interval, every deadline is met. -/
theorem slot_of_prompt (hprompt : ∀ j, p.latency j ≤ p.interval) (j : Nat) :
    p.slot j = ⟨j, p.deadline j⟩ := by
  induction j with
  | zero => simp [slot, deadline]
  | succ j ih =>
    have hdone : p.deadline j + p.latency j ≤ p.deadline (j + 1) := by
      have h := hprompt j
      simp only [deadline]
      push_cast
      linarith
    rw [slot, ih, p.next_of_prompt j hdone]
    simp

theorem time_of_prompt (hprompt : ∀ j, p.latency j ≤ p.interval) (j : Nat) :
    p.time j = p.start + j * p.interval := by
  rw [time, p.slot_of_prompt hprompt j]
  simp [deadline]

/-- How many deadlines lie before the end. -/
theorem count_of_prompt (hprompt : ∀ j, p.latency j ≤ p.interval) {duration : Rat} {n : Nat}
    (hn : ∀ j, p.time j < p.start + duration ↔ j < n) : n = ⌈duration / p.interval⌉₊ := by
  have hlt : ∀ j : Nat, j < n ↔ j < ⌈duration / p.interval⌉₊ := by
    intro j
    rw [← hn j, p.time_of_prompt hprompt j, Nat.lt_ceil, lt_div_iff₀ p.interval_pos]
    exact add_lt_add_iff_left _
  refine le_antisymm ?_ ?_
  · exact not_lt.mp fun h => lt_irrefl _ ((hlt _).mp h)
  · exact not_lt.mp fun h => lt_irrefl _ ((hlt _).mpr h)

/-- Rounding up and rounding down differ by at most one. -/
theorem ceil_near_floor {x : Rat} (hx : 0 ≤ x) : |(⌈x⌉₊ : Int) - ⌊x⌋ - 1| ≤ 1 := by
  have hceil : (⌈x⌉₊ : Int) = ⌈x⌉ := Int.natCast_ceil_eq_ceil hx
  have hlow : ⌊x⌋ ≤ ⌈x⌉ := Int.floor_le_ceil x
  have hhigh : ⌈x⌉ ≤ ⌊x⌋ + 1 := Int.ceil_le_floor_add_one x
  rw [hceil, abs_le]
  constructor <;> omega

end Pace

end BrokerLoad
