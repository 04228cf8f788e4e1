import BrokerLoad.Proofs.CommandLine.Plans
import BrokerLoad.Proofs.CommandLine.Read
import BrokerLoad.Proofs.Fleet.Returned
import BrokerLoad.Proofs.Results.Tables
import BrokerLoad.Proofs.Text.Glob
import BrokerLoad.Results.Chart
import BrokerLoad.Results.Series
import Mathlib.Data.List.Nodup

/-!
# From runs to rates

A series writes the table of every run to a file of its own, so no run touches the table of another.
All these files, and no others, are found through the pattern of their names.

## Main definitions

* `SeriesProgram.yardOf`: what a run of a series works with.
* `SeriesProgram.Returning`: runs that all return, one after the other.
* `SeriesProgram.tablesFrom`: the tables of some runs.
* `SeriesProgram.Recorded`: what a series leaves behind.

## Main statements

* `SeriesProgram.performFrom_returning`: what a series of returning runs writes.
* `SeriesProgram.recorded_of_returning`: a series of returning runs records them all.
* `SeriesProgram.rows_survive`: no row is lost and none appears twice from runs to rates.
-/

namespace BrokerLoad.SeriesProgram

open CommandLine ChartProgram

variable {σ π : Type} {s : RunnerProgram.Setting σ π} {renew : σ → σ} {plan : Plan Double}

/-! ## §1 The names of the tables -/

theorem tableName_chars (run : Nat) :
    (tableName run).toList = "results_run_".toList ++ decimalDigits run ++ ".csv".toList := by
  have hdigits : (toString run).toList = decimalDigits run := by
    rw [Nat.toString_eq_ofList_toDigits, String.toList_ofList, decimalDigits]
  rw [tableName, String.toList_append, String.toList_append, hdigits]

theorem tableName_injective {i j : Nat} (h : tableName i = tableName j) : i = j := by
  have hchars := congrArg String.toList h
  rw [tableName_chars, tableName_chars, List.append_cancel_right_eq,
    List.append_cancel_left_eq] at hchars
  rw [← digitsValue_decimalDigits i, hchars, digitsValue_decimalDigits]

/-- The name of a table is a single step of a path. -/
theorem isBareName_tableName (run : Nat) : IsBareName (tableName run) := by
  have hnot : ∀ c : Char, c.isDigit = false → c ∉ "results_run_".toList → c ∉ ".csv".toList →
      c ∉ (tableName run).toList := by
    intro c hdigit hfront hback hmem
    rw [tableName_chars, List.mem_append, List.mem_append] at hmem
    rcases hmem with (hmem | hmem) | hmem
    · exact hfront hmem
    · rw [isDigit_of_mem_decimalDigits hmem] at hdigit
      cases hdigit
    · exact hback hmem
  have hhead : (tableName run).toList.head? = some 'r' := by
    rw [tableName_chars]
    rfl
  refine ⟨hnot _ rfl (by decide) (by decide), hnot _ rfl (by decide) (by decide), ?_, ?_, ?_⟩
  all_goals
    intro heq
    rw [heq] at hhead
    revert hhead
    decide

/-- The name of a table is that of a file, if it is not too long. -/
theorem isFileName_tableName {run : Nat} (h : byteCount (tableName run).toList ≤ longestStep) :
    IsFileName (tableName run) := ⟨isBareName_tableName run, h⟩

/-- The names of all tables fit the pattern that the chart looks for. -/
theorem fitsName_tableName (run : Nat) :
    fitsName defaultPattern (tableName run) = true := by
  have hpattern : Pattern.ofChars defaultPattern.toList =
      "results_run_".toList.map .exactly ++ .anything :: ".csv".toList.map .exactly := by decide
  have hhead : (tableName run).toList.head? = some 'r' := by
    rw [tableName_chars]
    rfl
  have hadmits := (Pattern.admits_star_iff "results_run_".toList ".csv".toList
    (tableName run).toList).mpr ⟨_, tableName_chars run⟩
  rw [fitsName, hpattern, hadmits]
  simp [hhead]

/-! ## §2 Runs that return -/

/-- What a run of a series works with. -/
def yardOf (s : RunnerProgram.Setting σ π) (plan : Plan Double) : Yard Double σ π :=
  { host := s.host, workshop := s.workshop, plan, build := .bundled s.interpreter
    patience := .standard }

/-- Runs that all return, one after the other, each with no records at its start. -/
inductive Returning (s : RunnerProgram.Setting σ π) (renew : σ → σ) (plan : Plan Double) :
    σ → List (Summary Double π) → Prop where
  | none (env : σ) : Returning s renew plan env []
  | next {env : σ} {sum : Summary Double π} {after : Fleet.World Double σ π}
      {rest : List (Summary Double π)}
      (hrun : Fleet.atEnd (yardOf s plan) { env := renew env } = (.ok sum, after))
      (hrest : Returning s renew plan after.state.env rest) :
      Returning s renew plan env (sum :: rest)

/-- The tables of some runs, numbered from `number` on. -/
def tablesFrom (number : Nat) : List (Summary Double π) → List (Filed π)
  | [] => []
  | sum :: rest => ⟨tableName number, sum⟩ :: tablesFrom (number + 1) rest

/-- A run that returns is reported once its table is written, if its report can be printed. -/
theorem performOne_of_ok {p : Progress σ π} {sum : Summary Double π}
    {after : Fleet.World Double σ π} (runs : Int) (number : Nat)
    (hrun : Fleet.atEnd (yardOf s plan) { env := renew p.env } = (.ok sum, after)) :
    match p.files.write (tableName number) (sum.csv s.host.pid), sum.text with
    | .error f, _ | .ok _, .error f =>
      (performOne s renew plan runs number p).1 = .error (.fault f)
    | .ok files, .ok _ => ∃ q, performOne s renew plan runs number p = (.ok (), q) ∧
        q.env = after.state.env ∧ q.files = files := by
  have hrun : Action.runFrom (Fleet.run (yardOf s plan)) { state := { env := renew p.env } } =
      (.ok sum, after) := hrun
  unfold performOne
  rw [← yardOf]
  cases hwrite : p.files.write (tableName number) (sum.csv s.host.pid) with
  | error f => simp only [hrun, hwrite]
  | ok files =>
    cases htext : sum.text with
    | error f => simp only [hrun, hwrite, htext]
    | ok text =>
      simp only [hrun, hwrite, htext]
      exact ⟨_, rfl, rfl, rfl⟩

/-- A series of runs that return writes the table of each, if the names are not too long and the
reports can be printed. -/
theorem performFrom_returning {env : σ} {summaries : List (Summary Double π)}
    (h : Returning s renew plan env summaries) (runs : Int) (number : Nat) {p : Progress σ π}
    (henv : p.env = env)
    (hnames : ∀ i < number + summaries.length, byteCount (tableName i).toList ≤ longestStep)
    (htexts : ∀ sum ∈ summaries, ∃ text, sum.text = .ok text) :
    ∃ q, performFrom s renew plan runs number summaries.length p = (.ok (), q) ∧
      Writes s.host.pid p.files (tablesFrom number summaries) q.files := by
  induction h generalizing number p with
  | none env => exact ⟨p, rfl, .nil p.files⟩
  | @next env sum after rest hrun hrest ih =>
    subst henv
    obtain ⟨⟨text, htext⟩, htexts⟩ := List.forall_mem_cons.mp htexts
    have hname := hnames number (by simp)
    have houtlet := Directory.outletAt_of_isFileName (d := p.files) (isFileName_tableName hname)
    have hwrite := Directory.write_of_outlet houtlet (sum.csv s.host.pid)
    have hperform := performOne_of_ok runs number hrun
    rw [hwrite, htext] at hperform
    obtain ⟨v, hone, henv, hfiles⟩ := hperform
    obtain ⟨q, hfrom, hwrites⟩ := ih (number + 1) henv
      (fun i hi => hnames i (by rw [List.length_cons]; omega)) htexts
    refine ⟨q, ?_, .cons houtlet hwrite (hfiles ▸ hwrites)⟩
    rw [List.length_cons, performFrom, hone]
    exact hfrom

/-- A series of runs that was not stopped has written tables whose names are not too long, and printed
a report on every run. -/
theorem whole_of_performFrom {env : σ} {summaries : List (Summary Double π)}
    (h : Returning s renew plan env summaries) (runs : Int) (number : Nat) {p : Progress σ π}
    (henv : p.env = env)
    (hreturn : (performFrom s renew plan runs number summaries.length p).1 = .ok ()) :
    (∀ i < summaries.length, byteCount (tableName (number + i)).toList ≤ longestStep) ∧
      ∀ sum ∈ summaries, ∃ text, sum.text = .ok text := by
  induction h generalizing number p with
  | none env =>
    exact ⟨fun i hi => absurd hi (Nat.not_lt_zero i), fun sum hsum => absurd hsum List.not_mem_nil⟩
  | @next env sum after rest hrun hrest ih =>
    subst henv
    have hperform := performOne_of_ok runs number hrun
    rw [List.length_cons, performFrom] at hreturn
    -- a run that is not reported stops the series
    have hstopped : ∀ f, (performOne s renew plan runs number p).1 ≠ .error (.fault f) := by
      intro f herror
      generalize performOne s renew plan runs number p = result at herror hreturn
      obtain ⟨outcome, q⟩ := result
      cases herror
      cases hreturn
    cases hwrite : p.files.write (tableName number) (sum.csv s.host.pid) with
    | error f =>
      rw [hwrite] at hperform
      exact absurd hperform (hstopped f)
    | ok files =>
      cases htext : sum.text with
      | error f =>
        rw [hwrite, htext] at hperform
        exact absurd hperform (hstopped f)
      | ok text =>
        rw [hwrite, htext] at hperform
        obtain ⟨v, hone, henv, _⟩ := hperform
        rw [hone] at hreturn
        obtain ⟨hshort, htexts⟩ := ih (number + 1) henv hreturn
        refine ⟨fun i hi => ?_, List.forall_mem_cons.mpr ⟨⟨text, htext⟩, htexts⟩⟩
        cases i with
        | zero => exact Directory.short_of_write (isBareName_tableName number) hwrite
        | succ i =>
          have hname := hshort i (by rw [List.length_cons] at hi; omega)
          rwa [Nat.add_right_comm] at hname

/-! ## §3 What a series leaves -/

theorem tablesFrom_files (number : Nat) (summaries : List (Summary Double π)) :
    (tablesFrom number summaries).map (·.file) =
      (List.range' number summaries.length).map tableName := by
  induction summaries generalizing number with
  | nil => rfl
  | cons sum rest ih => rw [tablesFrom, List.map_cons, ih, List.length_cons, List.range'_succ,
      List.map_cons]

theorem length_tablesFrom (number : Nat) (summaries : List (Summary Double π)) :
    (tablesFrom number summaries).length = summaries.length := by
  simpa using congrArg List.length (tablesFrom_files number summaries)

theorem mem_of_mem_tablesFrom {number : Nat} {summaries : List (Summary Double π)} {t : Filed π}
    (h : t ∈ tablesFrom number summaries) : t.summary ∈ summaries := by
  induction summaries generalizing number with
  | nil => cases h
  | cons sum rest ih =>
    rcases List.mem_cons.mp h with rfl | h
    · exact List.mem_cons_self
    · exact List.mem_cons_of_mem _ (ih h)

/-- No two runs have a table of the same name. -/
theorem tablesFrom_nodup (number : Nat) (summaries : List (Summary Double π)) :
    ((tablesFrom number summaries).map (·.file)).Nodup := by
  rw [tablesFrom_files]
  exact (List.nodup_range' ..).map fun _ _ => tableName_injective

/-- Of the tables of a series each one is found once. -/
theorem pathsMatching_tablesFrom {u : Directory} {pid : π → Int} {summaries : List (Summary Double π)}
    (hfiles : u.files = (tablesFrom 0 summaries).map fun t => (t.file, t.summary.csv pid))
    (hnames : ∀ i < summaries.length, byteCount (tableName i).toList ≤ longestStep) :
    ∃ found, u.pathsMatching defaultPattern = .ok found ∧
      (found.map u.outletAt).Perm ((tablesFrom 0 summaries).map fun t => .ok (.file t.file)) := by
  refine pathsMatching_of_filed (by decide) (by decide) hfiles fun t ht => ?_
  have hmem := List.mem_map_of_mem (f := Filed.file) ht
  rw [tablesFrom_files] at hmem
  obtain ⟨i, hi, hname⟩ := List.mem_map.mp hmem
  have hlt : i < summaries.length := by
    have hrange := List.mem_range'_1.mp hi
    omega
  rw [← hname]
  exact ⟨isFileName_tableName (hnames i hlt), fitsName_tableName i⟩

/-! ## §4 The records of a series -/

/-- All clients are on the roster. -/
theorem length_roster (y : Yard Double σ π) :
    (Fleet.roster y).length = y.plan.subscribers + y.plan.publishers := by
  simp [Fleet.roster, Fleet.ranks]

/-- The records of a role are as many as its clients. -/
theorem length_filter_of_roster {y : Yard Double σ π} {records : List (Record Double π)}
    (h : records.map (fun r => (r.role, r.index)) = Fleet.roster y) (role : Role) :
    (records.filter (·.role = role)).length = Fleet.clients y role := by
  obtain ⟨subscribers, publishers, rfl, hlength, hlength', hsubscribers, hpublishers⟩ :=
    Fleet.roster_split h
  rw [List.filter_append, List.length_append]
  cases role with
  | publisher =>
    rw [List.filter_eq_nil_iff.mpr fun r hr => by simp [hsubscribers r hr],
      List.filter_eq_self.mpr fun r hr => by simp [hpublishers r hr], hlength']
    exact Nat.zero_add _
  | subscriber =>
    rw [List.filter_eq_self.mpr fun r hr => by simp [hsubscribers r hr],
      List.filter_eq_nil_iff.mpr fun r hr => by simp [hpublishers r hr], hlength]
    rfl

/-- The index of a record is below the number of clients of its role. -/
theorem index_of_roster {y : Yard Double σ π} {records : List (Record Double π)}
    (h : records.map (fun r => (r.role, r.index)) = Fleet.roster y) :
    ∀ r ∈ records, ∃ i : Nat, r.index = i ∧ i < Fleet.clients y r.role := by
  intro r hr
  have hmem : (r.role, r.index) ∈ Fleet.roster y :=
    h ▸ List.mem_map_of_mem (f := fun r : Record Double π => (r.role, r.index)) hr
  have hrank : ∀ {role : Role} {count : Nat}, (r.role, r.index) ∈ Fleet.ranks role count →
      r.role = role ∧ ∃ i : Nat, r.index = i ∧ i < count := by
    intro role count hmem
    obtain ⟨index, hindex, heq⟩ := List.mem_map.mp hmem
    obtain ⟨i, hi, hcast⟩ := List.mem_flatMap.mp hindex
    obtain rfl := List.mem_singleton.mp hcast
    exact ⟨(congrArg Prod.fst heq).symm, i, (congrArg Prod.snd heq).symm, List.mem_range.mp hi⟩
  rcases List.mem_append.mp hmem with hmem | hmem
  · obtain ⟨hrole, hindex⟩ := hrank hmem
    rwa [hrole]
  · obtain ⟨hrole, hindex⟩ := hrank hmem
    rwa [hrole]

theorem length_records {role : Role} {count : Nat} {tables : List (Filed π)}
    (h : ∀ t ∈ tables, (t.summary.records.filter (·.role = role)).length = count) :
    (Filed.records role tables).length = tables.length * count := by
  rw [Filed.records, List.length_flatMap, List.map_congr_left h, List.map_const',
    List.sum_replicate_nat]

/-- The numbers that the machine gives to the records of a run are short enough to be written. -/
def MachineNumbers (pid : π → Int) (sum : Summary Double π) : Prop :=
  ∀ r ∈ sum.records, (∀ p ∈ r.process, isWritable (pid p) = true) ∧
    ∀ n ∈ r.returncode, isWritable n = true

theorem tabular_of_returned {y : Yard Double σ π} {pid : π → Int} {sum : Summary Double π}
    (h : Fleet.Returned y sum) (hclients : ∀ role, isWritable (Fleet.clients y role) = true)
    (hnumbers : MachineNumbers pid sum) : ∀ r ∈ sum.records, r.Tabular pid := by
  intro r hr
  obtain ⟨hprocess, hreturncode⟩ := hnumbers r hr
  obtain ⟨i, hindex, hlt⟩ := index_of_roster h.roster r hr
  refine ⟨?_, hprocess, hreturncode, h.sent r hr⟩
  rw [hindex]
  exact isWritable_of_le (by simpa using hlt.le) (hclients r.role)

theorem Returning.returned {env : σ} {summaries : List (Summary Double π)}
    (h : Returning s renew plan env summaries) :
    ∀ sum ∈ summaries, Fleet.Returned (yardOf s plan) sum := by
  induction h with
  | none env => exact fun sum hnone => absurd hnone List.not_mem_nil
  | next hrun _ ih =>
    exact List.forall_mem_cons.mpr ⟨Fleet.returned_of_ok rfl (congrArg Prod.fst hrun), ih⟩

/-! ## §5 Series -/

/-- What a series leaves behind: for every run a file with the records of that run and no others, in
which all rows can be found again. -/
structure Recorded (s : RunnerProgram.Setting σ π) (plan : Plan Double)
    (summaries : List (Summary Double π)) (outcome : Outcome (Deed Double π)) : Prop where
  ending : outcome.ending = .returned
  files : outcome.files.files =
    (tablesFrom 0 summaries).map fun t => (t.file, t.summary.csv s.host.pid)
  own : ∀ sum ∈ summaries,
    sum.records.map (fun r => (r.role, r.index)) = Fleet.roster (yardOf s plan) ∧
      sum.records.length = plan.publishers + plan.subscribers ∧
        readSheet (sum.csv s.host.pid) = sum.records.map fun r => some (r.sheetRow s.host.pid)
  loaded : ∃ ordered : List (Filed π), ordered.Perm (tablesFrom 0 summaries) ∧
    Loads s.host.pid outcome.files defaultPattern ordered
  publishers : ∃ rows, loadRows outcome.files defaultPattern "publisher" = .ok rows ∧
    rows.length = summaries.length * plan.publishers
  subscribers : ∃ rows, loadRows outcome.files defaultPattern "subscriber" = .ok rows ∧
    rows.length = summaries.length * plan.subscribers

variable {arguments : List String} {p : Parsed} {runs : Int} {env : σ}
  {summaries : List (Summary Double π)}

/-- The numbers of clients come from the command line, so they can be written. -/
theorem isWritable_of_planOf (hparse : command.parse arguments = .ok p)
    (hplan : planOf s.defaults.qos p = .ok plan) (role : Role) :
    isWritable (Fleet.clients (yardOf s plan) role) = true := by
  obtain ⟨broker, _, hattempts⟩ := exists_of_bind_ok hplan
  obtain ⟨m, n, _, hm, hn, _, _, hpublishers, hsubscribers, _⟩ := exists_of_ofAttempts hattempts
  have hwritable : ∀ {n : Int}, isWritable n = true → isWritable (n.toNat : Int) = true :=
    fun h => isWritable_of_le (by omega) h
  cases role with
  | publisher =>
    rw [Fleet.clients, yardOf, hpublishers]
    exact hwritable (Parsed.isWritable_of_count hparse rfl hm)
  | subscriber =>
    rw [Fleet.clients, yardOf, hsubscribers]
    exact hwritable (Parsed.isWritable_of_count hparse rfl hn)

/-- The files of a series of runs that return, and what its tables hold. -/
theorem recorded_of_writes {u : Directory} {outcome : Outcome (Deed Double π)}
    (hreturned : ∀ sum ∈ summaries, Fleet.Returned (yardOf s plan) sum)
    (htabular : ∀ sum ∈ summaries, ∀ r ∈ sum.records, r.Tabular s.host.pid)
    (hnames : ∀ i < summaries.length, byteCount (tableName i).toList ≤ longestStep)
    (hwrites : Writes s.host.pid {} (tablesFrom 0 summaries) u)
    (hending : outcome.ending = .returned) (hleft : outcome.files = u) :
    Recorded s plan summaries outcome := by
  subst hleft
  have hfiles := hwrites.files (tablesFrom_nodup 0 summaries) fun _ _ => rfl
  rw [List.nil_append] at hfiles
  obtain ⟨found, hfound, hmatch⟩ := pathsMatching_tablesFrom hfiles hnames
  have hsummary : ∀ t ∈ tablesFrom 0 summaries, t.summary ∈ summaries :=
    fun _ ht => mem_of_mem_tablesFrom ht
  obtain ⟨ordered, hperm, hloads⟩ := hwrites.loads (tablesFrom_nodup 0 summaries) hfound hmatch
    fun t ht => htabular t.summary (hsummary t ht)
  have hcount : ∀ role : Role, ∃ rows, loadRows outcome.files defaultPattern role.name = .ok rows ∧
      rows.length = summaries.length * Fleet.clients (yardOf s plan) role := by
    intro role
    refine ⟨_, hloads.rows role, ?_⟩
    rw [List.length_map, length_records fun t ht => length_filter_of_roster
      (hreturned t.summary (hsummary t (hperm.mem_iff.mp ht))).roster role, hperm.length_eq,
      length_tablesFrom]
  refine ⟨hending, hfiles, fun sum hsum => ?_, ⟨ordered, hperm, hloads⟩, hcount .publisher,
    hcount .subscriber⟩
  have hroster := (hreturned sum hsum).roster
  refine ⟨hroster, ?_, readSheet_csv (htabular sum hsum)⟩
  rw [← List.length_map (fun r : Record Double π => (r.role, r.index)), hroster, length_roster,
    Nat.add_comm]
  rfl

/-- A series of runs that return records them all, if the names of its tables are not too long and
the reports can be printed. -/
theorem recorded_of_returning (hempty : s.directory = {})
    (hparse : command.parse arguments = .ok p) (hplan : planOf s.defaults.qos p = .ok plan)
    (hruns : needed .count (p.integer "runs" 10) = .ok runs)
    (hreturning : Returning s renew plan env summaries) (hlength : summaries.length = runs.toNat)
    (hnumbers : ∀ sum ∈ summaries, MachineNumbers s.host.pid sum)
    (hnames : ∀ i < runs.toNat, byteCount (tableName i).toList ≤ longestStep)
    (htexts : ∀ sum ∈ summaries, ∃ text, sum.text = .ok text) :
    Recorded s plan summaries (run s renew arguments env) := by
  have hnames : ∀ i < summaries.length, byteCount (tableName i).toList ≤ longestStep := by
    rwa [hlength]
  obtain ⟨q, hperform, hwrites⟩ := performFrom_returning hreturning runs 0
    (p := { env, files := s.directory }) rfl (by simpa using hnames) htexts
  have htabular : ∀ sum ∈ summaries, ∀ r ∈ sum.records, r.Tabular s.host.pid := fun sum hsum =>
    tabular_of_returned (hreturning.returned sum hsum) (isWritable_of_planOf hparse hplan)
      (hnumbers sum hsum)
  rw [hlength] at hperform
  rw [hempty] at hwrites
  have hrun : run s renew arguments env =
      { ending := .returned, output := q.output, files := q.files,
        setup := LogSetup.none.enable false, notes := q.notes } := by
    unfold run
    rw [hparse]
    simp only [hplan, hruns, bind, Except.bind, pure, Except.pure, hperform]
  rw [hrun]
  exact recorded_of_writes hreturning.returned htabular hnames hwrites rfl rfl

/-- The names of the tables of a series that returned are not too long, and all its reports were
printed. -/
theorem whole_of_returned (hparse : command.parse arguments = .ok p)
    (hplan : planOf s.defaults.qos p = .ok plan)
    (hruns : needed .count (p.integer "runs" 10) = .ok runs)
    (hreturning : Returning s renew plan env summaries) (hlength : summaries.length = runs.toNat)
    (hending : (run s renew arguments env).ending = .returned) :
    (∀ i < runs.toNat, byteCount (tableName i).toList ≤ longestStep) ∧
      ∀ sum ∈ summaries, ∃ text, sum.text = .ok text := by
  have hreturn : (performFrom s renew plan runs 0 runs.toNat
      { env, files := s.directory }).1 = .ok () := by
    unfold run at hending
    rw [hparse] at hending
    simp only [hplan, hruns, bind, Except.bind, pure, Except.pure] at hending
    split at hending
    · assumption
    · next stop _ => cases stop <;> cases hending
  rw [← hlength] at hreturn ⊢
  have hwhole := whole_of_performFrom hreturning runs 0 rfl hreturn
  simpa using hwhole

/-! ## §6 From runs to rates -/

/-- No row is lost and none appears twice on the way from runs to rates. Tables that were written to
different files are loaded through every pattern that finds just these files, with one row for every
record, in the order of the paths and, within a table, in that of the records; and the rates are
those of the publishers that succeeded, in the same order. A series of runs that return, started in
an empty directory, leaves such tables: one for every run, with the records of that run only. It
returns unless it has so many runs that the names of their files get too long, or a run has counted
more messages than can be written. -/
theorem rows_survive :
    (∀ {π : Type} {pid : π → Int} {d u : Directory} {tables : List (Filed π)} {pattern : String}
        {found : List String},
      Writes pid d tables u → (tables.map (·.file)).Nodup → u.pathsMatching pattern = .ok found →
      (found.map u.outletAt).Perm (tables.map fun t => .ok (.file t.file)) →
      (∀ t ∈ tables, ∀ r ∈ t.summary.records, r.Tabular pid ∧ r.Ratable) →
      ∃ ordered : List (Filed π), ordered.Perm tables ∧ Loads pid u pattern ordered ∧
        ∃ rows, loadRows u pattern "publisher" = .ok rows ∧
          achievedRates rows = .ok ((Filed.records .publisher ordered).filterMap Record.rate?)) ∧
    ∀ {σ π : Type} {s : RunnerProgram.Setting σ π} {renew : σ → σ} {arguments : List String}
        {env : σ} {p : Parsed} {plan : Plan Double} {runs : Int}
        {summaries : List (Summary Double π)},
      s.directory = {} → command.parse arguments = .ok p →
      planOf s.defaults.qos p = .ok plan → needed .count (p.integer "runs" 10) = .ok runs →
      Returning s renew plan env summaries → summaries.length = runs.toNat →
      (∀ sum ∈ summaries, MachineNumbers s.host.pid sum) →
      ((run s renew arguments env).ending = .returned ↔
        (∀ i < runs.toNat, byteCount (tableName i).toList ≤ longestStep) ∧
          ∀ sum ∈ summaries, isWritable sum.messagesSent = true) ∧
      ((run s renew arguments env).ending = .returned →
        Recorded s plan summaries (run s renew arguments env)) := by
  constructor
  · intro π pid d u tables pattern found hwrites hdistinct hfound hmatch hrecords
    obtain ⟨ordered, hperm, hloads⟩ := hwrites.loads hdistinct hfound hmatch
      fun t ht r hr => (hrecords t ht r hr).1
    have hratable : ∀ r ∈ Filed.records .publisher ordered, r.Ratable := by
      intro r hr
      obtain ⟨t, ht, hr⟩ := List.mem_flatMap.mp hr
      exact (hrecords t (hperm.mem_iff.mp ht) r (List.mem_of_mem_filter hr)).2
    exact ⟨ordered, hperm, hloads, _, hloads.rows .publisher, achievedRates_sheetRows hratable⟩
  · intro σ π s renew arguments env p plan runs summaries hempty hparse hplan hruns hreturning
      hlength hnumbers
    have hwhole := whole_of_returned hparse hplan hruns hreturning hlength
    have hrecorded := recorded_of_returning hempty hparse hplan hruns hreturning hlength hnumbers
    have htexts : (∀ sum ∈ summaries, ∃ text, sum.text = .ok text) ↔
        ∀ sum ∈ summaries, isWritable sum.messagesSent = true :=
      forall₂_congr fun sum hsum => (hreturning.returned sum hsum).text_iff
    rw [← htexts]
    constructor
    · exact ⟨hwhole, fun hyp => (hrecorded hyp.1 hyp.2).ending⟩
    · intro hending
      obtain ⟨hnames, htexts⟩ := hwhole hending
      exact hrecorded hnames htexts

/-- Two tables: in one a publisher reports what it sent, in the other it sent nothing and the
subscriber was never started. -/
def twoTables : List (Filed Unit) := [
  ⟨"b.csv", { publishers := 1, subscribers := 0, records := [
    { role := .publisher, index := 0, process := some (), status := .success, returncode := some 0,
      sent := some 5, elapsed := some 2, error := none }] }⟩,
  ⟨"a.csv", { publishers := 1, subscribers := 1, records := [
    { role := .subscriber, index := 0, process := none, status := .pending, returncode := none,
      sent := none, elapsed := none, error := none },
    { role := .publisher, index := 0, process := some (), status := .success, returncode := some 0,
      sent := some 0, elapsed := some 0, error := none }] }⟩]

/-- The machine on which every client ends at once; its sleep always answers. -/
def promptSetting : RunnerProgram.Setting Unit Unit := Bench.promptly fun _ => .ok ()

/-- Two runs with one client of each role. -/
def twoRuns : List String := ["--runs", "2", "--publishers", "1", "--subscribers", "1"]

/-- The command line is read, and a run that it asks for returns. -/
theorem twoRuns_return : ∃ p plan sum, command.parse twoRuns = .ok p ∧
    planOf promptSetting.defaults.qos p = .ok plan ∧ needed .count (p.integer "runs" 10) = .ok 2 ∧
    (Fleet.atEnd (yardOf promptSetting plan) { env := () }).1 = .ok sum ∧
    MachineNumbers promptSetting.host.pid sum ∧ isWritable sum.messagesSent = true := by
  obtain ⟨p, hparse, plan, hplan, sum, hsum, hruns, hcodes, hcount⟩ :
      ∃ p ∈ (command.parse twoRuns).toOption,
        ∃ plan ∈ (planOf promptSetting.defaults.qos p).toOption,
          ∃ sum ∈ (Fleet.atEnd (yardOf promptSetting plan) { env := () }).1.toOption,
            needed .count (p.integer "runs" 10) = .ok 2 ∧
              (∀ r ∈ sum.records, ∀ n ∈ r.returncode, isWritable n = true) ∧
                isWritable sum.messagesSent = true := by decide +kernel
  have hpid : isWritable 7 = true := by decide
  exact ⟨p, plan, sum, eq_ok_of_mem_toOption hparse, eq_ok_of_mem_toOption hplan, hruns,
    eq_ok_of_mem_toOption hsum, fun r hr => ⟨fun _ _ => hpid, hcodes r hr⟩, hcount⟩

/-- Two tables are written and read back, and so are those of a series of two runs. -/
theorem rows_survive_twice :
    (∃ u ordered, ordered.Perm twoTables ∧ Loads (fun _ => 7) u "*.csv" ordered ∧
      ∃ rows, loadRows u "*.csv" "publisher" = .ok rows ∧
        achievedRates rows = .ok ((Filed.records .publisher ordered).filterMap Record.rate?)) ∧
    ∃ plan summaries, summaries.length = 2 ∧
      Recorded promptSetting plan summaries (run promptSetting id twoRuns ()) := by
  constructor
  · have hnames : ∀ t ∈ twoTables, IsFileName t.file ∧ fitsName "*.csv" t.file = true := by
      decide +kernel
    obtain ⟨u, hwrites⟩ : ∃ u, Writes (fun _ => 7) {} twoTables u :=
      Writes.exists_of_isFileName {} fun t ht => (hnames t ht).1
    have hdistinct : (twoTables.map (·.file)).Nodup := by decide +kernel
    have hfiles := hwrites.files hdistinct fun _ _ => rfl
    obtain ⟨found, hfound, hmatch⟩ := pathsMatching_of_filed (by decide) (by decide) hfiles hnames
    have hnumbers : ∀ t ∈ twoTables, ∀ r ∈ t.summary.records, isWritable r.index = true ∧
        (∀ n ∈ r.returncode, isWritable n = true) ∧ (∀ n ∈ r.sent, isWritable n = true) ∧
        (∀ n ∈ r.sent, Double.ofInt? n = .ok (Double.ofInt n)) ∧
        ∀ x ∈ r.elapsed, readDouble? x.text = some x := by decide +kernel
    refine ⟨u, rows_survive.1 hwrites hdistinct hfound hmatch fun t ht r hr => ?_⟩
    obtain ⟨hindex, hcode, hsent, hcount, htime⟩ := hnumbers t ht r hr
    have hpid : ∀ p ∈ r.process, isWritable 7 = true := fun _ _ => by decide
    exact ⟨⟨hindex, hpid, hcode, hsent⟩, fun n hn => ⟨_, hcount n hn⟩, htime⟩
  · obtain ⟨p, plan, sum, hparse, hplan, hruns, hsum, hnumbers, hcount⟩ := twoRuns_return
    obtain ⟨after, hafter⟩ : ∃ after, ∀ env : Unit,
        Fleet.atEnd (yardOf promptSetting plan) { env } = (.ok sum, after) :=
      ⟨_, fun () => Prod.ext hsum rfl⟩
    have hreturning : Returning promptSetting id plan () [sum, sum] :=
      .next (hafter _) (.next (hafter _) (.none _))
    have hnames : ∀ i < (2 : Int).toNat, byteCount (tableName i).toList ≤ longestStep := by
      intro i hi
      obtain rfl | rfl : i = 0 ∨ i = 1 := by omega
      all_goals decide +kernel
    obtain ⟨hreturned, hrecorded⟩ :=
      rows_survive.2 (s := promptSetting) rfl hparse hplan hruns hreturning rfl
        (by simpa using hnumbers)
    exact ⟨plan, [sum, sum], rfl, hrecorded (hreturned.mpr ⟨hnames, by simpa using hcount⟩)⟩

end BrokerLoad.SeriesProgram
