import BrokerLoad.Fleet.Record
import BrokerLoad.Proofs.Files.Directory
import BrokerLoad.Proofs.Number.Written
import BrokerLoad.Proofs.Table.Sheet
import BrokerLoad.Results.Rates
import Mathlib.Data.List.Perm.Basic

/-!
# Results tables read back

A results table has a row for every record of its run, with seven cells that never need quotes. So
the table is read back row by row, and what is unknown of a record is an empty cell. Of several
tables every one is found in the file that it was written to, unless a later one replaced it; and a
pattern that finds just these files finds each table once.

## Main definitions

* `Record.Tabular`, `Record.Ratable`: records whose numbers can be written, and read back.
* `Record.sheetRow`: the row of a record.
* `Record.rate?`: the rate of a publisher.
* `Filed`, `Writes`: tables that are written to files one after another.

## Main statements

* `readSheet_csv`: a results table is read back.
* `achievedRates_sheetRows`: the rates that the rows of some records give.
* `Writes.find?`: tables in different files do not touch each other.
* `Writes.loads`: the rows that are loaded from written tables.
* `Writes.files`: the files that written tables are.
-/

namespace BrokerLoad

variable {π : Type} {pid : π → Int}

/-! ## §1 Rows -/

namespace Record

/-- The row of a record: its seven fields as text. What is unknown is empty. -/
def sheetRow (pid : π → Int) (r : Record Double π) : SheetRow where
  cells := [("role", some r.role.name), ("index", some (integerText r.index)),
    ("pid", some (Summary.cell (r.process.map pid))), ("status", some r.status.name),
    ("returncode", some (Summary.cell r.returncode)), ("sent", some (Summary.cell r.sent)),
    ("elapsed", some ((r.elapsed.map Double.text).getD ""))]

/-- The rate of a publisher: the messages it sent per second, if it succeeded and both values are
there, with a positive time. -/
def rate? (r : Record Double π) : Option Double :=
  match r.status, r.sent, r.elapsed with
  | .success, some sent, some elapsed =>
    if Double.lt 0 elapsed then some (Double.ofInt sent / elapsed) else none
  | _, _, _ => none

/-- A record whose integers are not too long to be written. -/
structure Tabular (pid : π → Int) (r : Record Double π) : Prop where
  index : isWritable r.index = true
  process : ∀ p ∈ r.process, isWritable (pid p) = true
  returncode : ∀ n ∈ r.returncode, isWritable n = true
  sent : ∀ n ∈ r.sent, isWritable n = true

/-- A record whose rate can be computed from its row: the number of messages is not too large for a
double-precision number, and the text of the time denotes it. -/
structure Ratable (r : Record Double π) : Prop where
  sent : ∀ n ∈ r.sent, ∃ x, Double.ofInt? n = .ok x
  elapsed : ∀ x ∈ r.elapsed, readDouble? x.text = some x

end Record

variable {r : Record Double π}

/-! ## §2 Cells that need no quotes -/

theorem needsQuotes_of_isNumberChar {c : Char} (hc : IsNumberChar c) :
    Csv.needsQuotes c = false := by
  rcases hc with hdigit | hmark
  · have hne : ∀ {d : Char}, d.isDigit = false → (c == d) = false := fun hd =>
      beq_false_of_ne (ne_of_isDigit hdigit hd)
    simp [Csv.needsQuotes, hne]
  · have hmarks :
        (['-', '+', '.', 'e', 'i', 'n', 'f', 'a'].all fun c => !Csv.needsQuotes c) = true := by
      decide
    simpa using List.all_eq_true.mp hmarks c hmark

theorem bare_integerText {n : Int} (hn : isWritable n = true) : Csv.Bare (integerText n) where
  plain := by
    rw [integerText, String.toList_ofList]
    exact fun c hc => needsQuotes_of_isNumberChar (isNumberChar_of_mem_integerChars hc)
  short := by
    rw [integerText, String.toList_ofList]
    exact Nat.le_trans (length_integerChars hn) (by decide)

theorem bare_text (x : Double) : Csv.Bare x.text where
  plain := by
    rw [Double.text, String.toList_ofList]
    exact fun c hc => needsQuotes_of_isNumberChar (Double.isNumberChar_of_mem_chars hc)
  short := by
    rw [Double.text, String.toList_ofList]
    exact Nat.le_trans x.length_chars (by decide)

theorem bare_empty : Csv.Bare "" := by decide

theorem bare_cell {cell : Option Int} (h : ∀ n ∈ cell, isWritable n = true) :
    Csv.Bare (Summary.cell cell) := by
  cases cell with
  | none => exact bare_empty
  | some n => exact bare_integerText (h n rfl)

theorem Role.bare_name (role : Role) : Csv.Bare role.name := by
  cases role <;> decide

theorem Status.bare_name (status : Status) : Csv.Bare status.name := by
  cases status <;> decide

/-- No cell of a record needs quotes. -/
theorem bare_row (h : r.Tabular pid) : ∀ text ∈ Summary.row pid r, Csv.Bare text := by
  have hpid : ∀ n ∈ r.process.map pid, isWritable n = true := by
    intro n hn
    obtain ⟨p, hp, rfl⟩ := Option.map_eq_some_iff.mp hn
    exact h.process p hp
  have helapsed : Csv.Bare ((r.elapsed.map Double.text).getD "") := by
    cases r.elapsed with
    | none => exact bare_empty
    | some x => exact bare_text x
  simp only [Summary.row, List.forall_mem_cons]
  exact ⟨r.role.bare_name, bare_integerText h.index, bare_cell hpid, r.status.bare_name,
    bare_cell h.returncode, bare_cell h.sent, helapsed, fun _ hnone => by cases hnone⟩

/-! ## §3 Tables -/

theorem ofFields_row (pid : π → Int) (r : Record Double π) :
    SheetRow.ofFields Summary.columns (Summary.row pid r) = r.sheetRow pid := rfl

/-- A results table is read back: one row for every record. -/
theorem readSheet_csv {s : Summary Double π} (h : ∀ r ∈ s.records, r.Tabular pid) :
    readSheet (s.csv pid) = s.records.map fun r => some (r.sheetRow pid) := by
  have hcolumns : ∀ text ∈ Summary.columns, Csv.Bare text := by decide +kernel
  have hrows : ∀ row ∈ s.records.map (Summary.row pid), ∀ text ∈ row, Csv.Bare text := by
    intro row hrow
    obtain ⟨r, hr, rfl⟩ := List.mem_map.mp hrow
    exact bare_row (h r hr)
  have hfilled : ∀ row ∈ s.records.map (Summary.row pid), row ≠ [] := by
    intro row hrow
    obtain ⟨r, _, rfl⟩ := List.mem_map.mp hrow
    exact List.cons_ne_nil _ _
  rw [Summary.csv, readSheet_renderStrings hcolumns hrows hfilled, List.map_map]
  exact List.map_congr_left fun r _ => congrArg some (ofFields_row pid r)

/-- The rows of a role are those of its records. -/
theorem rowsOfRole_sheetRows (role : Role) (records : List (Record Double π)) :
    rowsOfRole role.name (records.map fun r => some (r.sheetRow pid)) =
      .ok ((records.filter (·.role = role)).map (Record.sheetRow pid)) := by
  have hname : ∀ other : Role, (some other.name = some role.name) ↔ other = role := by
    intro other
    cases other <;> cases role <;> decide
  induction records with
  | nil => rfl
  | cons r rest ih =>
    have hrole : (r.sheetRow pid).require "role" = .ok (some r.role.name) := rfl
    rw [List.map_cons, rowsOfRole, hrole, ih]
    by_cases heq : r.role = role
    · rw [List.filter_cons_of_pos (by simpa using heq)]
      exact congrArg Except.ok (if_pos ((hname _).mpr heq))
    · rw [List.filter_cons_of_neg (by simpa using heq)]
      exact congrArg Except.ok (if_neg fun hsome => heq ((hname _).mp hsome))

/-! ## §4 Rates -/

theorem hasText_integerText (n : Int) : hasText (some (integerText n)) = true := by
  have hne : integerChars n ≠ [] := by simp [integerChars, decimalDigits_ne_nil]
  have htext : integerText n ≠ "" := by simpa [integerText] using hne
  simpa [hasText] using htext

/-- The text of a number that reads back is not empty. -/
theorem hasText_text {x : Double} (h : readDouble? x.text = some x) :
    hasText (some x.text) = true := by
  have hne : x.text ≠ "" := by
    intro hempty
    rw [hempty] at h
    cases h
  simpa [hasText] using hne

theorem ofInt?_eq_ok {n : Int} {x : Double} (h : Double.ofInt? n = .ok x) :
    Double.ofInt? n = .ok (Double.ofInt n) := by
  unfold Double.ofInt? at h ⊢
  split at h
  · cases h
  · rfl

/-- The rate that a row gives is the rate of its record. -/
theorem rateOf_sheetRow (h : r.Ratable) : rateOf (r.sheetRow pid) = .ok r.rate? := by
  have hstatus : (r.sheetRow pid).require "status" = .ok (some r.status.name) := rfl
  have hsent : (r.sheetRow pid).require "sent" = .ok (some (Summary.cell r.sent)) := rfl
  have helapsed : (r.sheetRow pid).require "elapsed" =
      .ok (some ((r.elapsed.map Double.text).getD "")) := rfl
  obtain ⟨hsents, hback⟩ := h
  simp only [rateOf, hstatus, hsent, helapsed, Record.rate?]
  -- a row without one of the three conditions gives no rate
  cases r.status with
  | pending => rfl
  | failure => rfl
  | success =>
    cases hs : r.sent with
    | none => rfl
    | some n =>
      obtain ⟨x, hx⟩ := hsents n hs
      have hwritable : isWritable n = true := isWritable_of_natAbs_lt (natAbs_lt_of_ofInt? hx)
      have htext : hasText (some (Summary.cell (some n))) = true := hasText_integerText n
      have hcount : Report.readCount (Summary.cell (some n)) = .ok n := by
        rw [Report.readCount, Summary.cell, readInteger_integerText hwritable]
      cases he : r.elapsed with
      | none => simp [bind, Except.bind, pure, Except.pure, hasText]
      | some t =>
        have htime : hasText (some t.text) = true := hasText_text (hback t he)
        simp only [bind, Except.bind, pure, Except.pure, htext, htime, Option.map_some,
          Option.getD_some, hback t he, hcount, ofInt?_eq_ok hx]
        simp only [Status.name, ne_eq, not_true, if_false, Bool.not_true, Bool.false_eq_true]
        split <;> rfl

/-- The rates that the rows of some records give are those of the records, in their order. -/
theorem achievedRates_sheetRows {records : List (Record Double π)}
    (h : ∀ r ∈ records, r.Ratable) :
    achievedRates (records.map (Record.sheetRow pid)) = .ok (records.filterMap Record.rate?) := by
  induction records with
  | nil => rfl
  | cons r rest ih =>
    obtain ⟨hr, hrest⟩ := List.forall_mem_cons.mp h
    rw [List.map_cons, achievedRates, rateOf_sheetRow hr, ih hrest, List.filterMap_cons]
    cases r.rate? <;> rfl

/-! ## §5 Files -/

/-- A summary whose table was written to a file. -/
structure Filed (π : Type) where
  file : String
  summary : Summary Double π

/-- The records of a role in some tables, one table after the other. -/
def Filed.records (role : Role) (tables : List (Filed π)) : List (Record Double π) :=
  tables.flatMap fun t => t.summary.records.filter (·.role = role)

/-- Tables are written one after another, each under a path that leads to its file. -/
inductive Writes (pid : π → Int) : Directory → List (Filed π) → Directory → Prop where
  | nil (d : Directory) : Writes pid d [] d
  | cons {d v u : Directory} {t : Filed π} {rest : List (Filed π)} {path : String}
      (hfile : d.outletAt path = .ok (.file t.file))
      (hwrite : d.write path (t.summary.csv pid) = .ok v) (hrest : Writes pid v rest u) :
      Writes pid d (t :: rest) u

variable {d u : Directory} {tables : List (Filed π)}

/-- Tables can be written under bare names. -/
theorem Writes.exists_of_isFileName {tables : List (Filed π)} (d : Directory)
    (h : ∀ t ∈ tables, IsFileName t.file) : ∃ u, Writes pid d tables u := by
  induction tables generalizing d with
  | nil => exact ⟨d, .nil d⟩
  | cons t rest ih =>
    obtain ⟨ht, hrest⟩ := List.forall_mem_cons.mp h
    have houtlet := Directory.outletAt_of_isFileName (d := d) ht
    obtain ⟨u, hwrites⟩ := ih (d.put t.file (t.summary.csv pid)) hrest
    exact ⟨u, .cons houtlet (Directory.write_of_outlet houtlet _) hwrites⟩

/-- A file that no table is written to stays as it is. -/
theorem Writes.find?_of_not_mem (h : Writes pid d tables u) {name : String}
    (hname : ∀ t ∈ tables, t.file ≠ name) : u.find? name = d.find? name := by
  induction h with
  | nil d => rfl
  | cons hfile hwrite _ ih =>
    obtain ⟨ht, hrest⟩ := List.forall_mem_cons.mp hname
    obtain rfl := Directory.eq_put_of_write hfile hwrite
    rw [ih hrest, Directory.find?_put, if_neg (Ne.symm ht)]

/-- A table is in its file, if no other was written to that. -/
theorem Writes.find? (h : Writes pid d tables u) (hdistinct : (tables.map (·.file)).Nodup) :
    ∀ t ∈ tables, u.find? t.file = some (t.summary.csv pid) := by
  induction h with
  | nil d => exact fun t ht => absurd ht List.not_mem_nil
  | @cons d v u t rest path hfile hwrite hrest ih =>
    obtain ⟨hnew, hothers⟩ := List.nodup_cons.mp hdistinct
    obtain rfl := Directory.eq_put_of_write hfile hwrite
    refine List.forall_mem_cons.mpr ⟨?_, ih hothers⟩
    -- the table stays where it was left, as the others go elsewhere
    rw [hrest.find?_of_not_mem, Directory.find?_put, if_pos rfl]
    intro other hother heq
    exact hnew (List.mem_map.mpr ⟨other, hother, heq⟩)

/-! ## §6 Loading -/

/-- The rows at some paths are those of the tables that lie there. -/
theorem rowsOfPaths_sheetRows (role : Role) {found : List String}
    (hfound : List.Forall₂ (fun path t => u.outletAt path = .ok (.file t.file)) found tables)
    (hfiled : ∀ t ∈ tables, u.find? t.file = some (t.summary.csv pid))
    (hrecords : ∀ t ∈ tables, ∀ r ∈ t.summary.records, r.Tabular pid) :
    rowsOfPaths u role.name found =
      .ok ((Filed.records role tables).map (Record.sheetRow pid)) := by
  induction hfound with
  | nil => rfl
  | @cons path t found tables hpath _ ih =>
    obtain ⟨ht, hrest⟩ := List.forall_mem_cons.mp hfiled
    obtain ⟨hr, hmore⟩ := List.forall_mem_cons.mp hrecords
    rw [rowsOfPaths, Directory.read_of_outlet hpath ht, ih hrest hmore]
    simp only [bind, Except.bind, pure, Except.pure, readSheet_csv hr, rowsOfRole_sheetRows]
    rw [Filed.records, Filed.records, List.flatMap_cons, List.map_append]

/-- What is loaded through a pattern: the tables stand in the order of the paths that they were found
under, and each gives the rows of its records. -/
structure Loads (pid : π → Int) (u : Directory) (pattern : String) (ordered : List (Filed π)) :
    Prop where
  inOrder : ∃ found : List String, u.pathsMatching pattern = .ok found ∧ found.Pairwise (· ≤ ·) ∧
    List.Forall₂ (fun path t => u.outletAt path = .ok (.file t.file)) found ordered
  rows : ∀ role : Role, BrokerLoad.loadRows u pattern role.name =
    .ok ((Filed.records role ordered).map (Record.sheetRow pid))

/-- Tables that were written to different files are loaded through every pattern that finds each of
these files once: one row for every record, in the order of the paths and, within a table, in that
of the records. -/
theorem Writes.loads (h : Writes pid d tables u) (hdistinct : (tables.map (·.file)).Nodup)
    {pattern : String} {found : List String} (hfound : u.pathsMatching pattern = .ok found)
    (hmatch : (found.map u.outletAt).Perm (tables.map fun t => .ok (.file t.file)))
    (hrecords : ∀ t ∈ tables, ∀ r ∈ t.summary.records, r.Tabular pid) :
    ∃ ordered : List (Filed π), ordered.Perm tables ∧ Loads pid u pattern ordered := by
  -- the tables can be put into the order of the paths
  obtain ⟨ordered, hpaths, hperm⟩ :=
    List.perm_comp_forall₂ (r := fun outlet t => outlet = .ok (.file t.file)) hmatch
      (List.forall₂_map_left_iff.mpr (List.forall₂_same.mpr fun _ _ => rfl))
  rw [List.forall₂_map_left_iff] at hpaths
  have hfiled : ∀ t ∈ ordered, u.find? t.file = some (t.summary.csv pid) :=
    fun t ht => h.find? hdistinct t (hperm.mem_iff.mp ht)
  have htabular : ∀ t ∈ ordered, ∀ r ∈ t.summary.records, r.Tabular pid :=
    fun t ht => hrecords t (hperm.mem_iff.mp ht)
  have hsorted := Directory.pairwise_pathsMatching hfound
  refine ⟨ordered, hperm, ⟨found, hfound, hsorted, hpaths⟩, fun role => ?_⟩
  rw [BrokerLoad.loadRows, hfound]
  exact rowsOfPaths_sheetRows role hpaths hfiled htabular

/-- Written into files that were not there, the tables are the new files. -/
theorem Writes.files (h : Writes pid d tables u) (hdistinct : (tables.map (·.file)).Nodup)
    (hnew : ∀ t ∈ tables, d.find? t.file = none) :
    u.files = d.files ++ tables.map fun t => (t.file, t.summary.csv pid) := by
  induction h with
  | nil d => simp
  | @cons d v u t rest path hfile hwrite hrest ih =>
    obtain ⟨ht, hothers⟩ := List.forall_mem_cons.mp hnew
    obtain ⟨hfirst, hnodup⟩ := List.nodup_cons.mp hdistinct
    obtain rfl := Directory.eq_put_of_write hfile hwrite
    have hput : (d.put t.file (t.summary.csv pid)).files =
        d.files ++ [(t.file, t.summary.csv pid)] := by
      rw [Directory.put, ht]
      rfl
    rw [ih hnodup, hput, List.append_assoc, List.map_cons, List.singleton_append]
    intro other hother
    rw [Directory.find?_put, if_neg, hothers other hother]
    exact fun heq => hfirst (List.mem_map.mpr ⟨other, hother, heq⟩)

/-- When the tables are all the files that there are, a pattern without folders that they fit finds
each of them once. -/
theorem pathsMatching_of_filed {pattern : String} (hslash : '/' ∉ pattern.toList)
    (hpattern : isPattern pattern.toList = true)
    (hfiles : u.files = tables.map fun t => (t.file, t.summary.csv pid))
    (hnames : ∀ t ∈ tables, IsFileName t.file ∧ fitsName pattern t.file = true) :
    ∃ found, u.pathsMatching pattern = .ok found ∧
      (found.map u.outletAt).Perm (tables.map fun t => .ok (.file t.file)) := by
  have hbare : ∀ f ∈ u.files, '/' ∉ f.1.toList := by
    rw [hfiles]
    intro f hf
    obtain ⟨t, ht, rfl⟩ := List.mem_map.mp hf
    exact (hnames t ht).1.slash
  have hall : (u.files.map (·.1)).filter (fitsName pattern) = tables.map (·.file) := by
    rw [hfiles, List.map_map]
    refine List.filter_eq_self.mpr fun name hmem => ?_
    obtain ⟨t, ht, rfl⟩ := List.mem_map.mp hmem
    exact (hnames t ht).2
  have hfound := Directory.pathsMatching_of_bare hslash hpattern hbare
  rw [hall] at hfound
  refine ⟨_, hfound, ((List.mergeSort_perm _ _).map u.outletAt).trans ?_⟩
  rw [List.map_map]
  exact .of_eq (List.map_congr_left fun t ht => Directory.outletAt_of_isFileName (hnames t ht).1)

end BrokerLoad
