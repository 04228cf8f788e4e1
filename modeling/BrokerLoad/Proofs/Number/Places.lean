import BrokerLoad.Proofs.Number.Integers
import BrokerLoad.Proofs.Text.Lines
import BrokerLoad.Time
import Mathlib.Data.Nat.Digits.Defs

/-!
# Numbers with a fixed number of places

A number that is written with some decimal places is a row of digits with a point in it, or one of
the two names. Either way it has no blank in it, and reads back as a number. An integer that is not
too large for a double-precision number is far from the length at which integers are not read any
more.

## Main statements

* `readReal_decimal`: digits with a point among them are a numeral.
* `Double.readReal_fixedChars`: a finite number with some places reads back rounded to these.
* `Double.read_fixed`: a number with some places reads back as a number.
* `natAbs_lt_of_ofInt?`, `isWritable_of_natAbs_lt`: an integer that is a double-precision number can
  be written.
-/

namespace BrokerLoad

/-! ## §1 Decimals -/

theorem takeWhile_isDecimalDigit {digits rest : List Char} (h : ∀ c ∈ digits, c.isDigit = true)
    (hrest : ∀ c ∈ rest.head?, isDecimalDigit c = false) :
    (digits ++ rest).takeWhile isDecimalDigit = digits ∧
      (digits ++ rest).dropWhile isDecimalDigit = rest := by
  have hdigits : ∀ c ∈ digits, isDecimalDigit c = true :=
    fun c hc => isDecimalDigit_of_isDigit (h c hc)
  have hnone : rest.takeWhile isDecimalDigit = [] ∧ rest.dropWhile isDecimalDigit = rest := by
    cases rest with
    | nil => exact ⟨rfl, rfl⟩
    | cons c tail =>
      have hc := hrest c rfl
      rw [List.takeWhile_cons, List.dropWhile_cons, hc]
      exact ⟨rfl, rfl⟩
  rw [List.takeWhile_append_of_pos hdigits, List.dropWhile_append_of_pos hdigits, hnone.1, hnone.2,
    List.append_nil]
  exact ⟨rfl, rfl⟩

/-- Without underscores there is nothing to separate. -/
theorem underscoresSeparate_of_forall {text : List Char} (h : ∀ c ∈ text, c ≠ '_')
    (afterDigit : Bool) : underscoresSeparate afterDigit text = true := by
  induction text generalizing afterDigit with
  | nil => rfl
  | cons c rest ih =>
    obtain ⟨hc, hrest⟩ := List.forall_mem_cons.mp h
    rw [underscoresSeparate]
    · exact ih hrest _
    · exact hc

/-- Digits with a point among them are read as they stand. -/
theorem readDecimal?_point {whole fraction : List Char} (hne : whole ≠ [])
    (hwhole : ∀ c ∈ whole, c.isDigit = true) (hfraction : ∀ c ∈ fraction, c.isDigit = true) :
    readDecimal? (whole ++ '.' :: fraction) =
      some (digitsValue (whole ++ fraction), -(fraction.length : Int)) := by
  have hpoint : ∀ c ∈ ('.' :: fraction).head?, isDecimalDigit c = false := by
    intro c hc
    cases hc
    decide +kernel
  obtain ⟨htake, hdrop⟩ := takeWhile_isDecimalDigit hwhole hpoint
  have hend : ∀ c ∈ ([] : List Char).head?, isDecimalDigit c = false := by nofun
  obtain ⟨htake', hdrop'⟩ := takeWhile_isDecimalDigit hfraction hend
  rw [List.append_nil] at htake' hdrop'
  have hsome : (whole.isEmpty && fraction.isEmpty) = false := by
    rw [List.isEmpty_eq_false_iff.mpr hne, Bool.false_and]
  simp only [readDecimal?, htake, hdrop, htake', hdrop', hsome, Bool.false_eq_true, if_false,
    readExponent?, Option.map_some, Int.zero_sub]

theorem toLower_of_isDigit {c : Char} (hc : c.isDigit = true) : c.toLower = c := by
  simp only [Char.isDigit, Bool.and_eq_true, decide_eq_true_eq] at hc
  have hlow : c.val.toNat ≤ 57 := hc.2
  unfold Char.toLower
  split
  · next hupper =>
    have hhigh : 65 ≤ c.val.toNat := hupper.1
    omega
  · rfl

theorem isBlank_of_mem_signText {negative : Bool} {c : Char} (hc : c ∈ signText negative) :
    isBlank c = false := by
  unfold signText at hc
  split at hc
  · rw [List.mem_singleton.mp hc]
    rfl
  · cases hc

/-- Digits with a point among them, with or without a minus sign, are a numeral. -/
theorem readReal_decimal (negative : Bool) {whole fraction : List Char} (hne : whole ≠ [])
    (hwhole : ∀ c ∈ whole, c.isDigit = true) (hfraction : ∀ c ∈ fraction, c.isDigit = true) :
    readReal (signText negative ++ (whole ++ '.' :: fraction)) =
      some (.decimal negative (digitsValue (whole ++ fraction)) (-(fraction.length : Int))) := by
  -- every character is a sign, a digit or the point
  have hbody : ∀ c ∈ whole ++ '.' :: fraction, c.isDigit = true ∨ c = '.' := by
    intro c hc
    rcases List.mem_append.mp hc with hc | hc
    · exact .inl (hwhole c hc)
    · rcases List.mem_cons.mp hc with rfl | hc
      · exact .inr rfl
      · exact .inl (hfraction c hc)
  have hblank : ∀ c ∈ signText negative ++ (whole ++ '.' :: fraction),
      isNumeralBlank c = false := by
    intro c hc
    rcases List.mem_append.mp hc with hc | hc
    · rw [isNumeralBlank, isBlank_of_mem_signText hc, Bool.false_and]
    · rcases hbody c hc with hdigit | rfl
      · exact isNumeralBlank_of_isDigit hdigit
      · rfl
  have htrim : trimWhere isNumeralBlank (signText negative ++ (whole ++ '.' :: fraction)) =
      signText negative ++ (whole ++ '.' :: fraction) :=
    trimWhere_eq_self (fun c hc => hblank c (List.mem_of_mem_head? hc))
      (fun c hc => hblank c (List.mem_of_mem_getLast? hc))
  obtain ⟨c, rest, rfl⟩ := List.exists_cons_of_ne_nil hne
  have hc : c.isDigit = true := hwhole c List.mem_cons_self
  have hsign : takeSign (signText negative ++ (c :: rest ++ '.' :: fraction)) =
      (negative, c :: rest ++ '.' :: fraction) := by
    have hminus : c ≠ '-' := ne_of_isDigit hc rfl
    have hplus : c ≠ '+' := ne_of_isDigit hc rfl
    cases negative with
    | true => rfl
    | false => simp [signText, takeSign, hminus, hplus]
  -- no name begins with a digit
  have hname : ∀ d name, d.isDigit = false →
      (c :: rest ++ '.' :: fraction).map Char.toLower ≠ d :: name := by
    intro d name hd heq
    have hhead : c.toLower = d := (List.cons.inj heq).1
    rw [toLower_of_isDigit hc] at hhead
    exact ne_of_isDigit hc hd hhead
  have hplain : ∀ d ∈ c :: rest ++ '.' :: fraction, d ≠ '_' := by
    intro d hd
    rcases hbody d hd with hdigit | rfl
    · exact ne_of_isDigit hdigit rfl
    · decide
  have hkeep : (c :: rest ++ '.' :: fraction).filter (· != '_') = c :: rest ++ '.' :: fraction :=
    List.filter_eq_self.mpr fun d hd => bne_iff_ne.mpr (hplain d hd)
  have hnames : ¬ ((c :: rest ++ '.' :: fraction).map Char.toLower = "inf".toList ∨
      (c :: rest ++ '.' :: fraction).map Char.toLower = "infinity".toList) :=
    fun h => h.elim (hname _ _ rfl) (hname _ _ rfl)
  have hnan : (c :: rest ++ '.' :: fraction).map Char.toLower ≠ "nan".toList := hname _ _ rfl
  simp only [readReal, htrim, hsign, hnames, hnan, if_false, underscoresSeparate_of_forall hplain,
    if_true, hkeep, readDecimal?_point hne hwhole hfraction, Option.map_some]

/-! ## §2 Numbers with some places -/

/-- What is written for a quotient are digits with a point among them, as many behind it as there
are places. Without the point they denote the quotient rounded to its last place. -/
theorem fixedPlaces_value (places num den : Nat) :
    ∃ whole fraction, fixedPlaces (places + 1) num den = whole ++ '.' :: fraction ∧ whole ≠ [] ∧
      (∀ c ∈ whole, c.isDigit = true) ∧ (∀ c ∈ fraction, c.isDigit = true) ∧
      fraction.length = places + 1 ∧
      digitsValue (whole ++ fraction) = roundHalfEven (num * tenPow (places + 1)) den := by
  set scaled := roundHalfEven (num * tenPow (places + 1)) den with hscaled
  set lower := decimalDigits (scaled % tenPow (places + 1)) with hlower
  have hten : 0 < tenPow (places + 1) := Nat.pow_pos (by decide)
  have hlength : lower.length ≤ places + 1 :=
    Nat.toDigits_length 10 _ _ (by omega) (Nat.mod_lt _ hten)
  have hdigits : ∀ c ∈ lower, c.isDigit = true := fun c => isDigit_of_mem_decimalDigits
  have hzeros : ∀ c ∈ List.replicate (places + 1 - lower.length) '0', c.isDigit = true :=
    fun c hc => List.eq_of_mem_replicate hc ▸ rfl
  have hpadded : (List.replicate (places + 1 - lower.length) '0' ++ lower).length = places + 1 := by
    rw [List.length_append, List.length_replicate]
    omega
  have hnothing : ∀ n, digitsValue (List.replicate n '0') = 0 := by
    intro n
    induction n with
    | zero => rfl
    | succ n ih =>
      have hzero : digitsValue ['0'] = 0 := rfl
      rw [List.replicate_succ', digitsValue_append _ (List.forall_mem_singleton.mpr rfl), ih, hzero,
        Nat.zero_mul]
  refine ⟨decimalDigits (scaled / tenPow (places + 1)), _, rfl, decimalDigits_ne_nil _,
    fun c => isDigit_of_mem_decimalDigits, List.forall_mem_append.mpr ⟨hzeros, hdigits⟩, hpadded, ?_⟩
  rw [digitsValue_append _ (List.forall_mem_append.mpr ⟨hzeros, hdigits⟩), hpadded,
    digitsValue_append _ hdigits, hnothing, hlower, digitsValue_decimalDigits,
    digitsValue_decimalDigits, Nat.zero_mul, Nat.zero_add]
  exact Nat.div_add_mod' _ _

/-- What is written for a finite number are digits with a point among them. -/
theorem fixedPlaces_digits (places num den : Nat) :
    ∃ whole fraction, fixedPlaces (places + 1) num den = whole ++ '.' :: fraction ∧ whole ≠ [] ∧
      (∀ c ∈ whole, c.isDigit = true) ∧ ∀ c ∈ fraction, c.isDigit = true := by
  obtain ⟨whole, fraction, hchars, hne, hwhole, hfraction, -, -⟩ := fixedPlaces_value places num den
  exact ⟨whole, fraction, hchars, hne, hwhole, hfraction⟩

/-- A finite number with some places reads as the decimal with so many places that is nearest to
it. -/
theorem Double.readReal_fixedChars (places : Nat) (negative : Bool) (m : Magnitude) :
    readReal ((Double.finite negative m).fixedChars (places + 1)) =
      some (.decimal negative (roundHalfEven (m.units * tenPow (places + 1)) unitsPerOne)
        (-((places + 1 : Nat) : Int))) := by
  obtain ⟨whole, fraction, hchars, hne, hwhole, hfraction, hlength, hvalue⟩ :=
    fixedPlaces_value places m.units unitsPerOne
  rw [Double.fixedChars, hchars, readReal_decimal negative hne hwhole hfraction, hlength, hvalue]

/-- What a number with some places is read as. -/
theorem Double.read_fixed_of_readReal {places : Nat} {x : Double} {reading : Reading}
    (h : readReal (x.fixedChars places) = some reading) :
    Seconds.read (Seconds.fixed places x) = .ok (Double.ofReading reading) := by
  have htext : (Seconds.fixed places x).toList = x.fixedChars places := String.toList_ofList
  rw [Seconds.read, htext, h]
  rfl

/-- A number with some places reads back as a number. -/
theorem Double.read_fixed (places : Nat) (x : Double) :
    ∃ y : Double, Seconds.read (Seconds.fixed (places + 1) x) = .ok y := by
  have hread : ∃ reading, readReal (x.fixedChars (places + 1)) = some reading := by
    cases x with
    | nan => exact ⟨_, rfl⟩
    | infinite s => cases s <;> exact ⟨_, rfl⟩
    | finite s m => exact ⟨_, Double.readReal_fixedChars places s m⟩
  obtain ⟨reading, hreading⟩ := hread
  exact ⟨_, Double.read_fixed_of_readReal hreading⟩

/-- A number with some places has no blank in it. -/
theorem Double.isBlank_of_mem_fixedChars {places : Nat} {x : Double} {c : Char}
    (hc : c ∈ x.fixedChars (places + 1)) : isBlank c = false := by
  cases x with
  | nan =>
    have hname : ['n', 'a', 'n'].all (!isBlank ·) = true := rfl
    exact isBlank_of_all hname hc
  | infinite s =>
    have hname : ['i', 'n', 'f'].all (!isBlank ·) = true := rfl
    exact (List.mem_append.mp hc).elim isBlank_of_mem_signText (isBlank_of_all hname)
  | finite s m =>
    rcases List.mem_append.mp hc with hc | hc
    · exact isBlank_of_mem_signText hc
    · obtain ⟨whole, fraction, hchars, -, hwhole, hfraction⟩ :=
        fixedPlaces_digits places m.units unitsPerOne
      rw [hchars] at hc
      rcases List.mem_append.mp hc with hc | hc
      · exact isBlank_of_isDigit (hwhole c hc)
      · rcases List.mem_cons.mp hc with rfl | hc
        · rfl
        · exact isBlank_of_isDigit (hfraction c hc)

/-! ## §3 Integers that are numbers -/

theorem le_roundHalfEven (num den : Nat) : num / den ≤ roundHalfEven num den := by
  unfold roundHalfEven
  split
  · exact Nat.le_refl _
  · split
    · exact Nat.le_succ _
    · exact Nat.le_add_right _ _

/-- The highest binary digit is kept when a large number is rounded. -/
theorem twoPow_le_roundDigits {num k : Nat} (hk : 52 ≤ k) (h : twoPow k ≤ num) :
    twoPow k ≤ roundDigits num 1 := by
  have hnum : num ≠ 0 := Nat.pos_iff_ne_zero.mp (Nat.lt_of_lt_of_le (twoPow_pos k) h)
  have hlog : k ≤ num.log2 := (Nat.le_log2 hnum).mpr h
  have hplace : num.log2 = 52 + lastPlace num := by
    unfold lastPlace
    omega
  have hdigits : twoPow 52 ≤ num / twoPow (lastPlace num) := by
    rw [Nat.le_div_iff_mul_le (twoPow_pos _), ← twoPow_add, ← hplace]
    exact Nat.log2_self_le hnum
  calc twoPow k ≤ twoPow 52 * twoPow (lastPlace num) := by
        rw [← twoPow_add, ← hplace]
        exact twoPow_le hlog
    _ ≤ roundHalfEven num (twoPow (lastPlace num)) * twoPow (lastPlace num) :=
        Nat.mul_le_mul_right _ (Nat.le_trans hdigits (le_roundHalfEven _ _))
    _ = roundDigits num 1 := by rw [roundDigits, Nat.div_one, Nat.one_mul]

theorem lt_of_roundDigits_lt {num k : Nat} (hk : 52 ≤ k) (h : roundDigits num 1 < twoPow k) :
    num < twoPow k := by
  by_contra hlarge
  exact Nat.not_lt.mpr (twoPow_le_roundDigits hk (Nat.not_lt.mp hlarge)) h

theorem unitsOverflow_eq : unitsOverflow = twoPow (1024 + 1074) := rfl

/-- An integer that is a double-precision number has fewer than 1025 binary digits. -/
theorem natAbs_lt_of_ofInt? {n : Int} {x : Double} (h : Double.ofInt? n = .ok x) :
    n.natAbs < twoPow 1024 := by
  have hround : roundDigits (n * unitsPerOne).natAbs 1 < unitsOverflow := by
    by_contra hlarge
    have hinfinite : ∃ s, Double.ofInt n = .infinite s := by
      rw [Double.ofInt, Double.ofUnits, Double.ofRatio, dif_neg hlarge]
      exact ⟨_, rfl⟩
    obtain ⟨s, hs⟩ := hinfinite
    unfold Double.ofInt? at h
    split at h
    · cases h
    · next hfinite => exact hfinite s hs
  rw [unitsOverflow_eq] at hround
  have hunits := lt_of_roundDigits_lt (Nat.le_add_left_of_le (by decide)) hround
  rw [Int.natAbs_mul, Int.natAbs_natCast, unitsPerOne, twoPow_add] at hunits
  exact Nat.lt_of_mul_lt_mul_right hunits

theorem twoPow_le_pow_ten {k m : Nat} (h : k ≤ m) : twoPow k ≤ 10 ^ m :=
  Nat.le_trans (Nat.pow_le_pow_left (by decide) k) (Nat.pow_le_pow_right (by decide) h)

/-- An integer that is a double-precision number is short enough to be written. -/
theorem isWritable_of_natAbs_lt {n : Int} (h : n.natAbs < twoPow 1024) :
    isWritable n = true := by
  have hlength : n.natAbs < 10 ^ maxIntegerDigits :=
    Nat.lt_of_lt_of_le h (twoPow_le_pow_ten (by decide))
  refine decide_eq_true ?_
  unfold Double.decimalLength
  split
  · exact Nat.zero_le _
  · exact Nat.toDigits_length 10 _ _ (by decide) hlength

end BrokerLoad
