import BrokerLoad.Proofs.Table.Csv
import BrokerLoad.Table.Sheet

/-!
# Tables read back

A table is read with its line ends unified. That changes nothing but the line ends as long as its
fields stand there as they are, without quotes. Such a table is read back row by row.

## Main definitions

* `Csv.Bare`: a text that is written as it is and can be read.

## Main statements

* `readSheet_renderStrings`: a table of bare fields is read back under its header.
-/

namespace BrokerLoad

/-! ## §1 Bare fields -/

/-- A text that is written without quotes, and that is short enough to be read. -/
structure Csv.Bare (text : String) : Prop where
  plain : ∀ c ∈ text.toList, Csv.needsQuotes c = false
  short : text.toList.length ≤ Csv.fieldLimit

instance (text : String) : Decidable (Csv.Bare text) :=
  decidable_of_iff ((text.toList.all fun c => !Csv.needsQuotes c) = true ∧
      text.toList.length ≤ Csv.fieldLimit)
    ⟨fun ⟨hplain, hshort⟩ => ⟨by simpa using hplain, hshort⟩,
     fun h => ⟨by simpa using h.plain, h.short⟩⟩

namespace Csv

theorem renderField_plain {s : List Char} (hs : ∀ c ∈ s, needsQuotes c = false) :
    renderField s = s := by
  rw [renderField, if_neg (by simpa using hs)]

/-- Bare fields bring no carriage return into a row. -/
theorem return_not_mem_joinFields {row : List (List Char)}
    (hrow : ∀ s ∈ row, ∀ c ∈ s, needsQuotes c = false) : '\r' ∉ joinFields row := by
  have hfield : ∀ s : List Char, (∀ c ∈ s, needsQuotes c = false) → '\r' ∉ s := by
    intro s hs hmem
    cases hs _ hmem
  fun_induction joinFields row with
  | case1 => exact List.not_mem_nil
  | case2 s =>
    have hs := hrow s List.mem_cons_self
    rw [renderField_plain hs]
    exact hfield s hs
  | case3 s rest _ ih =>
    obtain ⟨hs, hrest⟩ := List.forall_mem_cons.mp hrow
    rw [renderField_plain hs]
    intro hmem
    rcases List.mem_append.mp hmem with hmem | hmem
    · exact hfield s hs hmem
    · rcases List.mem_cons.mp hmem with heq | hmem
      · cases heq
      · exact ih hrest hmem

theorem return_not_mem_rowBody {row : List (List Char)}
    (hrow : ∀ s ∈ row, ∀ c ∈ s, needsQuotes c = false) : '\r' ∉ rowBody row := by
  unfold rowBody
  split
  · decide
  · exact return_not_mem_joinFields hrow

end Csv

/-! ## §2 Line ends -/

/-- What has no carriage return stays as it is. -/
theorem unifyLineEnds_append {text : List Char} (h : '\r' ∉ text) (rest : List Char) :
    unifyLineEnds (text ++ rest) = text ++ unifyLineEnds rest := by
  induction text with
  | nil => rfl
  | cons c text ih =>
    obtain ⟨hc, htext⟩ := List.ne_and_not_mem_of_not_mem_cons h
    rw [List.cons_append, unifyLineEnds.eq_3 _ _ (fun _ heq _ => hc heq.symm) (hc ·.symm),
      ih htext, List.cons_append]

/-- In a table of bare fields each row gets a bare line feed. -/
theorem unifyLineEnds_renderRows {rows : List (List (List Char))}
    (hrows : ∀ row ∈ rows, ∀ s ∈ row, ∀ c ∈ s, Csv.needsQuotes c = false) :
    unifyLineEnds (rows.flatMap Csv.renderRow) =
      rows.flatMap fun row => Csv.rowBody row ++ ['\n'] := by
  induction rows with
  | nil => rfl
  | cons row rows ih =>
    obtain ⟨hrow, hrest⟩ := List.forall_mem_cons.mp hrows
    rw [List.flatMap_cons, List.flatMap_cons, Csv.renderRow_eq, List.append_assoc,
      unifyLineEnds_append (Csv.return_not_mem_rowBody hrow), List.append_assoc, ← ih hrest]
    exact congrArg (Csv.rowBody row ++ ·) (unifyLineEnds.eq_1 _)

/-! ## §3 Tables -/

theorem map_ofList_toList (texts : List String) :
    (texts.map String.toList).map String.ofList = texts := by
  rw [List.map_map]
  exact List.map_id'' (fun _ => String.ofList_toList) texts

theorem isReadable_of_bare {row : List String} (hrow : ∀ text ∈ row, Csv.Bare text) :
    Csv.isReadable (row.map String.toList) = true := by
  rw [Csv.isReadable, List.all_map, List.all_eq_true]
  exact fun text htext => decide_eq_true (hrow text htext).short

/-- A table of bare fields is read back under its header. -/
theorem readSheet_renderStrings {header : List String} {rows : List (List String)}
    (hheader : ∀ text ∈ header, Csv.Bare text) (hrows : ∀ row ∈ rows, ∀ text ∈ row, Csv.Bare text)
    (hfilled : ∀ row ∈ rows, row ≠ []) :
    readSheet (String.join ((header :: rows).map Csv.renderStrings)) =
      rows.map fun row => some (.ofFields header row) := by
  have hbare : ∀ row ∈ header :: rows, ∀ text ∈ row, Csv.Bare text :=
    List.forall_mem_cons.mpr ⟨hheader, hrows⟩
  -- the characters of the table, its line ends unified, are those of its rows
  have hparse : Csv.parse (unifyLineEnds
      (String.join ((header :: rows).map Csv.renderStrings)).toList) =
        (header :: rows).map fun row => row.map String.toList := by
    have hchars : (String.join ((header :: rows).map Csv.renderStrings)).toList =
        ((header :: rows).map fun row => row.map String.toList).flatMap Csv.renderRow := by
      simp only [String.toList_join, List.flatMap_map, Csv.renderStrings, String.toList_ofList]
    rw [hchars, unifyLineEnds_renderRows, Csv.parse_lines]
    intro row hrow s hs
    obtain ⟨texts, htexts, rfl⟩ := List.mem_map.mp hrow
    obtain ⟨text, htext, rfl⟩ := List.mem_map.mp hs
    exact (hbare texts htexts text htext).plain
  -- no row is left out, and each of them can be read
  have hall : (rows.map fun row => row.map String.toList).filter (fun row => !row.isEmpty) =
      rows.map fun row => row.map String.toList := by
    refine List.filter_eq_self.mpr fun row hrow => ?_
    obtain ⟨texts, htexts, rfl⟩ := List.mem_map.mp hrow
    simpa using hfilled texts htexts
  rw [readSheet, hparse, List.map_cons]
  simp only [isReadable_of_bare hheader, Bool.not_true, Bool.false_eq_true, if_false, hall,
    map_ofList_toList]
  rw [List.map_map]
  refine List.map_congr_left fun row hrow => ?_
  rw [Function.comp, if_pos (isReadable_of_bare (hrows row hrow)), map_ofList_toList]

end BrokerLoad
