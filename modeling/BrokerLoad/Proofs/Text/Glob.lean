import BrokerLoad.Text.Glob

/-!
# Names with a fixed beginning and a fixed end

A pattern is matched by what it may leave of a name. A character leaves the tails that stand behind
it, and a star leaves every tail. So a pattern of characters with one star among them fits the names
that begin with what stands in front of the star and end with what stands behind it.

## Main statements

* `Pattern.mem_foldl_exactly`: what characters leave of a name.
* `Pattern.admits_star_iff`: the names that a pattern with one star fits.
-/

namespace BrokerLoad.Pattern

variable {left : List (List Char)} {text rest : List Char}

/-- A character leaves what stands behind it. -/
theorem mem_advance_exactly {c : Char} : rest ∈ advance left (.exactly c) ↔ c :: rest ∈ left := by
  simp only [advance, List.mem_filterMap]
  constructor
  · intro hyp
    obtain ⟨whole, hwhole, hrest⟩ := hyp
    cases whole with
    | nil => cases hrest
    | cons d tail =>
      dsimp only at hrest
      split at hrest
      · next hadmits =>
        obtain rfl := Option.some.inj hrest
        obtain rfl : d = c := by simpa [PatternItem.admitsChar] using hadmits
        exact hwhole
      · cases hrest
  · intro hmem
    exact ⟨c :: rest, hmem, by simp [PatternItem.admitsChar]⟩

/-- Characters leave what stands behind all of them. -/
theorem mem_foldl_exactly :
    rest ∈ (text.map PatternItem.exactly).foldl advance left ↔ text ++ rest ∈ left := by
  induction text generalizing left with
  | nil => rfl
  | cons c text ih =>
    rw [List.map_cons, List.foldl_cons, ih, mem_advance_exactly, List.cons_append]

theorem mem_tails : rest ∈ tails text ↔ rest <:+ text := by
  induction text with
  | nil => simp [tails]
  | cons c text ih => rw [tails, List.mem_cons, ih, List.suffix_cons_iff]

/-- A pattern with one star fits the names with its beginning and its end. -/
theorem admits_star_iff (front back name : List Char) :
    admits (front.map .exactly ++ .anything :: back.map .exactly) name = true ↔
      ∃ middle, name = front ++ middle ++ back := by
  rw [admits, List.contains_iff_mem, List.foldl_append, List.foldl_cons, mem_foldl_exactly,
    List.append_nil]
  have hfront : ∀ rest, rest ∈ (front.map PatternItem.exactly).foldl advance [name] ↔
      name = front ++ rest := by
    intro rest
    rw [mem_foldl_exactly, List.mem_singleton, eq_comm]
  generalize (front.map PatternItem.exactly).foldl advance [name] = left at hfront
  cases left with
  | nil =>
    -- the name has another beginning
    refine iff_of_false List.not_mem_nil fun hyp => ?_
    obtain ⟨middle, hname⟩ := hyp
    rw [List.append_assoc] at hname
    exact absurd ((hfront _).mpr hname) List.not_mem_nil
  | cons longest more =>
    have hlongest : name = front ++ longest := (hfront longest).mp List.mem_cons_self
    show back ∈ tails longest ↔ _
    rw [mem_tails, hlongest]
    constructor
    · intro hyp
      obtain ⟨middle, hmiddle⟩ := hyp
      exact ⟨middle, by rw [List.append_assoc, hmiddle]⟩
    · intro hyp
      obtain ⟨middle, hmiddle⟩ := hyp
      rw [List.append_assoc, List.append_cancel_left_eq] at hmiddle
      exact ⟨middle, hmiddle.symm⟩

end BrokerLoad.Pattern
