import BrokerLoad.Table.Csv

/-!
# Rows read back

A written row is read back field by field. What the reader does with the characters of a field only
depends on where it stands when the field begins, and what it does with the mark behind the field on
where it stands when the field is over. So there is one lemma on a whole field, and rows and tables
follow by induction.

## Main definitions

* `Csv.Place.after`: where the reader stands when a field is over.
* `Csv.rowBody`: a row as it is written, without its line end.

## Main statements

* `Csv.parseFrom_renderField`: a field is read back.
* `Csv.parse_renderRows`: the rows of a written table are read back.
* `Csv.parse_lines`: so are rows whose line end is a bare line feed.
-/

namespace BrokerLoad.Csv

variable {place : Place} {fields : List (List Char)} {field : List Char}

/-! ## §1 Single marks -/

/-- A comma finishes a field, wherever it does not stand between quotes. -/
theorem parseFrom_comma (hplace : place ≠ .insideQuotes) (rest : List Char) :
    parseFrom place fields field (',' :: rest) =
      parseFrom .fieldStart (field.reverse :: fields) [] rest := by
  simp [parseFrom, hplace]

/-- The two characters that end a row. -/
def EndsRow (c : Char) : Prop := c = '\r' ∨ c = '\n'

/-- Where the reader stands behind a character that ended a row. -/
def Place.behind (c : Char) : Place := if c = '\r' then .afterReturn else .rowStart

/-- A line end finishes an open row. -/
theorem parseFrom_end {c : Char} (hc : EndsRow c) (hplace : place ≠ .insideQuotes)
    (hopen : place.betweenRows = false) (rest : List Char) :
    parseFrom place fields field (c :: rest) =
      (fields.reverse ++ [field.reverse]) :: parseFrom (.behind c) [] [] rest := by
  have hreturn : place ≠ .afterReturn := by
    rintro rfl
    cases hopen
  rcases hc with rfl | rfl <;> simp [parseFrom, hplace, hreturn, hopen, Place.behind]

/-- A line end at the start of a row gives a row without fields. -/
theorem parseFrom_end_rowStart {c : Char} (hc : EndsRow c) (rest : List Char) :
    parseFrom .rowStart fields field (c :: rest) = [] :: parseFrom (.behind c) [] [] rest := by
  rcases hc with rfl | rfl <;> simp [parseFrom, Place.betweenRows, Place.behind]

/-- A character that needs no quotes belongs to a bare field. -/
theorem parseFrom_plain {c : Char} (hc : needsQuotes c = false) (hplace : place ≠ .insideQuotes)
    (rest : List Char) :
    parseFrom place fields field (c :: rest) = parseFrom .bare fields (c :: field) rest := by
  simp only [needsQuotes, Bool.or_eq_false_iff, beq_eq_false_iff_ne] at hc
  obtain ⟨⟨⟨hcomma, hquote⟩, hreturn⟩, hfeed⟩ := hc
  simp [parseFrom, hplace, hcomma, hquote, hreturn, hfeed]

/-! ## §2 Fields -/

/-- Where the reader stands when a field is over that began at some place. An empty field without
quotes leaves it where it was. -/
def Place.after (place : Place) (s : List Char) : Place :=
  if s.any needsQuotes then .afterQuote else if s = [] then place else .bare

theorem Place.after_ne_insideQuotes (hplace : place ≠ .insideQuotes) (s : List Char) :
    place.after s ≠ .insideQuotes := by
  unfold Place.after
  split
  · decide
  · split
    · exact hplace
    · decide

/-- A row is open behind a field that is not empty, and behind every field but the first. -/
theorem Place.after_open {s : List Char} (h : s ≠ [] ∨ place.betweenRows = false) :
    (place.after s).betweenRows = false := by
  unfold Place.after
  split
  · rfl
  · split
    · next hempty => exact h.resolve_left (fun hne => hne hempty)
    · rfl

theorem parseFrom_bare {s : List Char} (hs : ∀ c ∈ s, needsQuotes c = false) (rest : List Char) :
    parseFrom .bare fields field (s ++ rest) = parseFrom .bare fields (s.reverse ++ field) rest := by
  induction s generalizing field with
  | nil => rfl
  | cons c s ih =>
    obtain ⟨hc, hrest⟩ := List.forall_mem_cons.mp hs
    rw [List.cons_append, parseFrom_plain hc (by decide), ih hrest, List.reverse_cons,
      List.append_assoc, List.singleton_append]

/-- Between quotes two of them stand for one, and a single one is the end. -/
theorem parseFrom_quoted (s rest : List Char) :
    parseFrom .insideQuotes fields field (doubleQuotes s ++ '"' :: rest) =
      parseFrom .afterQuote fields (s.reverse ++ field) rest := by
  induction s generalizing field with
  | nil => simp [doubleQuotes, parseFrom]
  | cons c s ih =>
    have hstep : parseFrom .insideQuotes fields field (doubleQuotes (c :: s) ++ '"' :: rest) =
        parseFrom .insideQuotes fields (c :: field) (doubleQuotes s ++ '"' :: rest) := by
      by_cases hc : c = '"'
      · simp [doubleQuotes, hc, parseFrom, Place.opensQuotes]
      · simp [doubleQuotes, hc, parseFrom]
    rw [hstep, ih, List.reverse_cons, List.append_assoc, List.singleton_append]

/-- A field is read back, whatever follows it. -/
theorem parseFrom_renderField (hplace : place.opensQuotes = true) (s rest : List Char) :
    parseFrom place fields [] (renderField s ++ rest) =
      parseFrom (place.after s) fields s.reverse rest := by
  have hinside : place ≠ .insideQuotes := by
    rintro rfl
    cases hplace
  unfold renderField Place.after
  split
  · next hquotes =>
    -- the opening quote, the doubled characters, and the closing quote
    have hopening : parseFrom place fields [] ('"' :: (doubleQuotes s ++ '"' :: rest)) =
        parseFrom .insideQuotes fields [] (doubleQuotes s ++ '"' :: rest) := by
      simp [parseFrom, hinside, hplace]
    rw [List.cons_append, List.append_assoc, List.singleton_append, hopening, parseFrom_quoted,
      List.append_nil]
  · next hplain =>
    have hall : ∀ c ∈ s, needsQuotes c = false := by simpa using hplain
    cases s with
    | nil => rfl
    | cons c s =>
      obtain ⟨hc, hrest⟩ := List.forall_mem_cons.mp hall
      rw [List.cons_append, parseFrom_plain hc hinside, parseFrom_bare hrest, List.reverse_cons]
      simp

/-! ## §3 Rows -/

/-- The fields of a row are read back, up to its line end. Behind the first field a row is open, so
only a row of one empty field could be mistaken for no row. -/
theorem parseFrom_joinFields {c : Char} (hc : EndsRow c) (rest : List Char) (s : List Char)
    (more : List (List Char)) (hplace : place.opensQuotes = true)
    (hopen : s ≠ [] ∨ more ≠ [] ∨ place.betweenRows = false) :
    parseFrom place fields [] (joinFields (s :: more) ++ c :: rest) =
      (fields.reverse ++ s :: more) :: parseFrom (.behind c) [] [] rest := by
  have hinside : place ≠ .insideQuotes := by
    rintro rfl
    cases hplace
  induction more generalizing place fields s with
  | nil =>
    rw [joinFields, parseFrom_renderField hplace,
      parseFrom_end hc (Place.after_ne_insideQuotes hinside s)
        (Place.after_open (hopen.imp_right fun h => h.resolve_left (fun hne => hne rfl))),
      List.reverse_reverse]
  | cons t more ih =>
    rw [joinFields.eq_3 _ _ (List.cons_ne_nil t more), List.append_assoc, List.cons_append,
      parseFrom_renderField hplace, parseFrom_comma (Place.after_ne_insideQuotes hinside s),
      ih t rfl (.inr (.inr rfl)) (by decide), List.reverse_cons, List.reverse_reverse,
      List.append_assoc, List.singleton_append]

/-- A row as it is written, without its line end. -/
def rowBody (row : List (List Char)) : List Char := if row = [[]] then ['"', '"'] else joinFields row

theorem renderRow_eq (row : List (List Char)) : renderRow row = rowBody row ++ ['\r', '\n'] := rfl

/-- A row is read back, up to its line end. -/
theorem parseFrom_rowBody {c : Char} (hc : EndsRow c) (row : List (List Char)) (rest : List Char) :
    parseFrom .rowStart [] [] (rowBody row ++ c :: rest) =
      row :: parseFrom (.behind c) [] [] rest := by
  unfold rowBody
  split
  · next hempty =>
    -- two quotes with nothing between them
    rw [hempty]
    have hquotes : parseFrom .rowStart [] [] ('"' :: '"' :: c :: rest) =
        parseFrom .afterQuote [] [] (c :: rest) := by simp [parseFrom, Place.opensQuotes]
    exact hquotes.trans (parseFrom_end hc (by decide) rfl rest)
  · next hne =>
    cases row with
    | nil => exact parseFrom_end_rowStart hc rest
    | cons s more =>
      have hopen : s ≠ [] ∨ more ≠ [] := by
        cases s with
        | nil => exact .inr fun hmore => hne (by rw [hmore])
        | cons d s => exact .inl (List.cons_ne_nil d s)
      exact parseFrom_joinFields hc rest s more rfl (hopen.imp_right .inl)

/-! ## §4 Tables -/

/-- The rows of a written table are read back, whatever is in their fields. -/
theorem parse_renderRows (rows : List (List (List Char))) :
    parse (rows.flatMap renderRow) = rows := by
  induction rows with
  | nil => rfl
  | cons row rows ih =>
    -- the line feed of the line end is skipped
    have hfeed : parseFrom .afterReturn [] [] ('\n' :: rows.flatMap renderRow) =
        parseFrom .rowStart [] [] (rows.flatMap renderRow) := by simp [parseFrom, Place.opensQuotes]
    have hrow := parseFrom_rowBody (.inl rfl) row ('\n' :: rows.flatMap renderRow)
    rw [List.flatMap_cons, renderRow_eq, List.append_assoc]
    exact hrow.trans (congrArg (row :: ·) (hfeed.trans ih))

/-- So are rows whose line end is a bare line feed. -/
theorem parse_lines (rows : List (List (List Char))) :
    parse (rows.flatMap fun row => rowBody row ++ ['\n']) = rows := by
  induction rows with
  | nil => rfl
  | cons row rows ih =>
    have hrow := parseFrom_rowBody (.inr rfl) row
      (rows.flatMap fun row => rowBody row ++ ['\n'])
    rw [List.flatMap_cons, List.append_assoc]
    exact hrow.trans (congrArg (row :: ·) ih)

end BrokerLoad.Csv
