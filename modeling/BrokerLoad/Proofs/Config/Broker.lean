import BrokerLoad.Config.Broker
import BrokerLoad.Proofs.Number.Integers
import Mathlib.Data.List.Basic

/-!
# Broker addresses as text

A text is cut at its last colon, so a host may have colons in it and a port has none. The port is an
integer numeral with all that these allow, such as signs, underscores and blanks.

An address that was read is written with its port, whether it was read with one or not. Its host
begins with no blank, since the blanks around a text are dropped before it is read, and its port has
no colon in it. So the text is cut at the same colon again, and reads back as the same address.

## Main definitions

* `BrokerAddress.Spelling`: which texts are addresses, and what they say.

## Main statements

* `BrokerAddress.parse_eq_ok_iff`: what the reader accepts.
* `BrokerAddress.parse_text`: an address that was read reads back from its text.
* `BrokerAddress.parse_canonical`: every text is refused or reads as such an address.
-/

namespace BrokerLoad

/-! ## §1 Pieces of texts -/

section Pieces

variable {p : Char → Bool} {s a b : List Char} {c mark : Char}

/-- A trimmed text begins with no character of the class. -/
theorem of_trimWhere_cons (h : trimWhere p s = c :: a) : p c = false := by
  have hprefix : c :: a <+: s.dropWhile p := by
    rw [← h, trimWhere, ← List.reverse_suffix, List.reverse_reverse]
    exact List.dropWhile_suffix p
  obtain ⟨rest, hrest⟩ := hprefix
  have hhead := List.head?_dropWhile_not p s
  rw [← hrest] at hhead
  simpa using hhead

theorem cutLast?_eq_none : cutLast? mark s = none ↔ mark ∉ s := by
  induction s with
  | nil => simp [cutLast?]
  | cons c rest ih =>
    cases h : cutLast? mark rest with
    | none =>
      have hrest : mark ∉ rest := ih.mp h
      by_cases hc : c = mark
      · simp [cutLast?, h, hc]
      · simp [cutLast?, h, hc, hrest, Ne.symm hc]
    | some pieces =>
      have hrest : mark ∈ rest := by
        by_contra hno
        rw [ih.mpr hno] at h
        cases h
      simp [cutLast?, h, hrest]

/-- The text is cut at its last mark. -/
theorem cutLast?_eq_some : cutLast? mark s = some (a, b) ↔ s = a ++ mark :: b ∧ mark ∉ b := by
  induction s generalizing a with
  | nil => simp [cutLast?]
  | cons c rest ih =>
    constructor
    · intro h
      cases hrest : cutLast? mark rest with
      | none =>
        simp only [cutLast?, hrest, Option.ite_none_right_eq_some, Option.some.injEq,
          Prod.mk.injEq] at h
        obtain ⟨rfl, rfl, rfl⟩ := h
        exact ⟨rfl, cutLast?_eq_none.mp hrest⟩
      | some pieces =>
        simp only [cutLast?, hrest, Option.some.injEq, Prod.mk.injEq] at h
        obtain ⟨rfl, rfl⟩ := h
        obtain ⟨hpieces, hmark⟩ := ih.mp hrest
        exact ⟨congrArg (c :: ·) hpieces, hmark⟩
    · rintro ⟨hcut, hmark⟩
      cases a with
      | nil =>
        obtain ⟨rfl, rfl⟩ := List.cons.inj hcut
        simp [cutLast?, cutLast?_eq_none.mpr hmark]
      | cons d front =>
        obtain ⟨rfl, hrest⟩ := List.cons.inj hcut
        simp [cutLast?, ih.mpr ⟨hrest, hmark⟩]

end Pieces

/-! ## §2 Addresses -/

namespace BrokerAddress

variable {given : String} {b : BrokerAddress}

/-- What a text without blanks around it says, if it is an address: a host, or a host and a port
with the last colon between them. -/
inductive Spelling : List Char → BrokerAddress → Prop
  | host {host : List Char} : host ≠ [] → ':' ∉ host →
    Spelling host { host := String.ofList host }
  | hostPort {host port : List Char} {n : Int} : host ≠ [] → ':' ∉ port →
    IntegerNumeral port n → 0 < n → n < 65536 →
    Spelling (host ++ ':' :: port) { host := String.ofList host, port := n }

theorem Spelling.ne_nil {chars : List Char} (h : Spelling chars b) : chars ≠ [] := by
  cases h with
  | host hhost => exact hhost
  | hostPort => exact List.append_ne_nil_of_right_ne_nil _ (List.cons_ne_nil _ _)

theorem parse_of_spelling (h : Spelling (strip given.toList) b) : parse given = .ok b := by
  have hne := h.ne_nil
  unfold parse
  simp only
  generalize strip given.toList = chars at h hne
  cases h with
  | host _ hcolon => simp only [if_neg hne, cutLast?_eq_none.mpr hcolon]
  | @hostPort host port n hhost hcolon hnumeral hlow hhigh =>
    have hcut : cutLast? ':' (host ++ ':' :: port) = some (host, port) :=
      cutLast?_eq_some.mpr ⟨rfl, hcolon⟩
    have hrange : host ≠ [] ∧ 0 < n ∧ n < 65536 := ⟨hhost, hlow, hhigh⟩
    simp only [if_neg hne, hcut, readIntegerChars_eq_ok_iff.mpr hnumeral, if_pos hrange]

theorem spelling_of_parse (h : parse given = .ok b) : Spelling (strip given.toList) b := by
  unfold parse at h
  simp only at h
  generalize strip given.toList = chars at h
  by_cases hne : chars = []
  · rw [if_pos hne] at h
    cases h
  rw [if_neg hne] at h
  cases hcut : cutLast? ':' chars with
  | none =>
    -- no port was given
    rw [hcut] at h
    cases h
    exact .host hne (cutLast?_eq_none.mp hcut)
  | some pieces =>
    obtain ⟨host, port⟩ := pieces
    obtain ⟨rfl, hcolon⟩ := cutLast?_eq_some.mp hcut
    simp only [hcut] at h
    cases hport : readIntegerChars port with
    | error e =>
      rw [hport] at h
      cases h
    | ok n =>
      simp only [hport] at h
      split at h
      · next hrange =>
        obtain ⟨hhost, hlow, hhigh⟩ := hrange
        cases h
        exact .hostPort hhost hcolon (readIntegerChars_eq_ok_iff.mp hport) hlow hhigh
      · cases h

/-- The reader takes what is spelled, and nothing else. -/
theorem parse_eq_ok_iff : parse given = .ok b ↔ Spelling (strip given.toList) b :=
  ⟨spelling_of_parse, parse_of_spelling⟩

/-- An address that was read has a host, which begins with no blank, and a port from the range. -/
theorem parse_eq_ok (h : parse given = .ok b) :
    (∃ c rest, b.host.toList = c :: rest ∧ isBlank c = false) ∧ 0 < b.port ∧ b.port < 65536 := by
  have hfirst : ∀ c rest, strip given.toList = c :: rest → isBlank c = false :=
    fun c rest => of_trimWhere_cons
  have hspelling := parse_eq_ok_iff.mp h
  generalize strip given.toList = chars at hspelling hfirst
  cases hspelling with
  | host hhost =>
    obtain ⟨c, rest, rfl⟩ := List.exists_cons_of_ne_nil hhost
    exact ⟨⟨c, rest, String.toList_ofList, hfirst c rest rfl⟩,
      (by decide : 0 < defaultPort ∧ defaultPort < 65536)⟩
  | hostPort hhost _ _ hlow hhigh =>
    obtain ⟨c, rest, rfl⟩ := List.exists_cons_of_ne_nil hhost
    exact ⟨⟨c, rest, String.toList_ofList, hfirst c _ rfl⟩, hlow, hhigh⟩

/-- A port from the range is written in digits, and can be read back. -/
theorem port_digits {n : Int} (hlow : 0 < n) (hhigh : n < 65536) :
    integerChars n = decimalDigits n.natAbs ∧ isWritable n = true := by
  have hlength : (Nat.toDigits 10 n.natAbs).length ≤ 5 :=
    (Nat.length_toDigits_le_iff (by decide) (by decide)).mpr (by omega)
  constructor
  · rw [integerChars, decide_eq_false (by omega)]
    rfl
  · rw [isWritable, decide_eq_true_eq, Double.decimalLength, if_neg (by omega)]
    exact hlength.trans (by decide)

/-- An address that was read reads back from its text. -/
theorem parse_text (h : parse given = .ok b) : parse b.text = .ok b := by
  obtain ⟨⟨c, rest, hhost, hfirst⟩, hlow, hhigh⟩ := parse_eq_ok h
  obtain ⟨hport, hwritable⟩ := port_digits hlow hhigh
  have hdigits : ∀ d ∈ integerChars b.port, d.isDigit = true := by
    rw [hport]
    exact fun d => isDigit_of_mem_decimalDigits
  have hchars : b.text.toList = b.host.toList ++ ':' :: integerChars b.port := by
    simp [text, integerText]
  -- the text begins with the host and ends with a digit
  have hstrip : strip b.text.toList = b.text.toList := by
    refine trimWhere_eq_self ?_ ?_
    · intro d hd
      rw [hchars, hhost] at hd
      cases hd
      exact hfirst
    · intro d hd
      refine isBlank_of_isDigit (hdigits d ?_)
      have hne : integerChars b.port ≠ [] := hport ▸ decimalDigits_ne_nil _
      rw [hchars, List.getLast?_append_of_ne_nil _ (List.cons_ne_nil _ _),
        List.getLast?_cons_of_ne_nil hne] at hd
      exact List.mem_of_getLast? hd
  have hcolon : ':' ∉ integerChars b.port := fun hmem => absurd (hdigits ':' hmem) (by decide)
  have hhostne : b.host.toList ≠ [] := hhost ▸ List.cons_ne_nil c rest
  have hspelling :=
    Spelling.hostPort hhostne hcolon (integerNumeral_integerChars hwritable) hlow hhigh
  rw [String.ofList_toList, ← hchars, ← hstrip] at hspelling
  exact parse_eq_ok_iff.mpr hspelling

/-- A text is refused as no address, or it is read as one with a host and a port from the range,
which its own text gives back. It is read if there is something between the blanks around it, and
that has no colon, or a host in front of the last one and the numeral of a port behind it. -/
theorem parse_canonical (given : String) :
    ((∃ refusal : ConfigError, parse given = .error refusal) ∨
      ∃ b, parse given = .ok b ∧ b.host ≠ "" ∧ 0 < b.port ∧ b.port < 65536 ∧
        parse b.text = .ok b) ∧
    ((∃ b, parse given = .ok b) ↔
      strip given.toList ≠ [] ∧
        (':' ∉ strip given.toList ∨
          ∃ host port n, strip given.toList = host ++ ':' :: port ∧ ':' ∉ port ∧ host ≠ [] ∧
            IntegerNumeral port n ∧ 0 < n ∧ n < 65536)) := by
  refine ⟨?_, ?_⟩
  · cases h : parse given with
    | error refusal => exact .inl ⟨refusal, rfl⟩
    | ok b =>
      obtain ⟨⟨c, rest, hhost, -⟩, hlow, hhigh⟩ := parse_eq_ok h
      refine .inr ⟨b, rfl, fun hempty => ?_, hlow, hhigh, parse_text h⟩
      rw [hempty] at hhost
      cases hhost
  · simp only [parse_eq_ok_iff]
    generalize strip given.toList = chars
    constructor
    · rintro ⟨b, hspelling⟩
      refine ⟨hspelling.ne_nil, ?_⟩
      cases hspelling with
      | host _ hcolon => exact .inl hcolon
      | hostPort hhost hcolon hnumeral hlow hhigh =>
        exact .inr ⟨_, _, _, rfl, hcolon, hhost, hnumeral, hlow, hhigh⟩
    · rintro ⟨hne, hcolon | ⟨host, port, n, rfl, hcolon, hhost, hnumeral, hlow, hhigh⟩⟩
      · exact ⟨_, .host hne hcolon⟩
      · exact ⟨_, .hostPort hhost hcolon hnumeral hlow hhigh⟩

end BrokerAddress

end BrokerLoad
