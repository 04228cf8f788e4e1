import BrokerLoad.Proofs.Files.Directory
import BrokerLoad.Proofs.Fleet.Runner

/-!
# External clients

An external client may have a build command. Whatever keeps the client from being run is meant to be
a build error, which the runner reports as a failed build. This holds of a command that cannot be
started, of one that fails, and of an executable that is not there or cannot be executed. But a
command line is cut into words before the command is run, where nothing catches what goes wrong. So
a command line with an open quote ends the runner with a fault, as does what else a command may
raise.

## Main definitions

* `Build.Commanded`, `Build.Ensured`: how it goes to make sure that there is an external client.
* `Build.Verdict`: what each end of that means.
* `RunnerProgram.Aborted`: a failed build that was reported.

## Main statements

* `Build.ensure_iff`: making sure ends as `Build.Ensured` tells.
* `RunnerProgram.external_decided`: which problems are build errors, and what the runner makes of
  all of them.
-/

namespace BrokerLoad

variable {τ σ π : Type}

namespace Build

variable {shop : Workshop σ} {env after : σ} {executable : String} {command : Option BuildCommand}
  {c : BuildCommand} {argv : List String} {f : Fault} {reason : String}

/-! ## §1 From the command to the executable -/

/-- How a command fails that was run, and the reason that is given: it cannot be started, or it
exits with another code than zero. -/
inductive CommandFailure : Fault → String → Prop
  | os (e : OsError) : CommandFailure (.os e) e.message
  | exit (argv : List String) (code : Int) :
    CommandFailure (.commandFailed argv code) (commandFailedMessage argv code)

/-- The words that are run as the build command. -/
def Runs (command : Option BuildCommand) (argv : List String) : Prop :=
  ∃ c, command = some c ∧ c.isEmpty = false ∧ c.words = .ok argv

/-- A command line that cannot be cut into words. -/
def Malformed (command : Option BuildCommand) (e : ValueError) : Prop :=
  ∃ text, command = some (.line text) ∧ shellWords text = .error e

/-- How it goes with the build command. An empty one is as good as none. -/
inductive Commanded (shop : Workshop σ) (env : σ) (command : Option BuildCommand) :
    Except Fault σ → Prop
  | none : (∀ c, command = some c → c.isEmpty = true) → Commanded shop env command (.ok env)
  | done {argv : List String} {after : σ} : Runs command argv →
    shop.command argv env = (.ok (), after) → Commanded shop env command (.ok after)
  | malformed {e : ValueError} : Malformed command e → Commanded shop env command (.error (.value e))
  | failed {argv : List String} {f : Fault} {reason : String} : Runs command argv →
    (shop.command argv env).1 = .error f → CommandFailure f reason →
    Commanded shop env command (.error (.build (.command reason)))
  | passed {argv : List String} {f : Fault} : Runs command argv →
    (shop.command argv env).1 = .error f → (∀ reason, ¬ CommandFailure f reason) →
    Commanded shop env command (.error f)

/-- How it goes to make sure that there is an external client: after the command, its executable is
looked at. -/
inductive Ensured (shop : Workshop σ) (env : σ) (executable : String)
    (command : Option BuildCommand) : Except Fault Unit → Prop
  | stopped {f : Fault} : Commanded shop env command (.error f) →
    Ensured shop env executable command (.error f)
  | missing {after : σ} : Commanded shop env command (.ok after) →
    (shop.isFile executable after).1 = false →
    Ensured shop env executable command (.error (.build (.missing executable)))
  | notExecutable {after : σ} : Commanded shop env command (.ok after) →
    (shop.isFile executable after).1 = true →
    (shop.isExecutable executable (shop.isFile executable after).2).1 = false →
    Ensured shop env executable command (.error (.build (.notExecutable executable)))
  | built {after : σ} : Commanded shop env command (.ok after) →
    (shop.isFile executable after).1 = true →
    (shop.isExecutable executable (shop.isFile executable after).2).1 = true →
    Ensured shop env executable command (.ok ())

/-! ## §2 What is run -/

/-- The build command, if there is one. -/
def prepare (shop : Workshop σ) (command : Option BuildCommand) : Act τ σ π Unit :=
  match command with
  | some c => if !c.isEmpty then runCommand shop c else pure ()
  | none => pure ()

/-- The questions about the executable. -/
def inspect (shop : Workshop σ) (executable : String) : Act τ σ π Unit := do
  if !(← ask (shop.isFile executable)) then Action.fail (.build (.missing executable))
  if !(← ask (shop.isExecutable executable)) then
    Action.fail (.build (.notExecutable executable))

theorem ensure_external (shop : Workshop σ) (executable : String)
    (command : Option BuildCommand) :
    ((external executable command).ensure shop : Act τ σ π Unit) =
      prepare shop command >>= fun _ => inspect shop executable := by
  cases command with
  | none => rfl
  | some c =>
    change (if (!c.isEmpty) = true then runCommand shop c >>= fun _ => inspect shop executable
        else inspect shop executable) =
      (if (!c.isEmpty) = true then runCommand shop c else pure ()) >>=
        fun _ => inspect shop executable
    split <;> rfl

/-- A command with words is run, and what it answers decides. -/
theorem runCommand_run (hwords : c.words = .ok argv) (w : Traced (Deed τ π) σ) :
    ∃ trail, Action.runFrom (runCommand shop c) w =
      (match (shop.command argv w.state).1 with
        | .ok () => .ok ()
        | .error (.os e) => .error (.fault (.build (.command e.message)))
        | .error (.commandFailed argv code) =>
          .error (.fault (.build (.command (commandFailedMessage argv code))))
        | .error f => .error (.fault f),
      ⟨(shop.command argv w.state).2, trail⟩) := by
  refine ⟨.command argv :: .log ⟨.info, logger, "Building client: " ++ c.text⟩ :: w.trail, ?_⟩
  simp only [runCommand, log, ask, hwords, Action.ofExcept, Action.runFrom_bind,
    Traced.runFrom_note, Traced.runFrom_current, Traced.runFrom_change, Action.runFrom_pure]
  cases (shop.command argv w.state).1 with
  | ok _ => rfl
  | error f => cases f <;> rfl

theorem prepare_of_runs (shop : Workshop σ) (h : Runs command argv) :
    ∃ c, c.words = .ok argv ∧ (prepare shop command : Act τ σ π Unit) = runCommand shop c := by
  obtain ⟨c, rfl, hfull, hwords⟩ := h
  refine ⟨c, hwords, ?_⟩
  simp only [prepare, hfull]
  rfl

theorem prepare_ok {w : Traced (Deed τ π) σ} (h : Commanded shop w.state command (.ok after)) :
    ∃ trail, Action.runFrom (prepare shop command) w = (.ok (), ⟨after, trail⟩) := by
  generalize hr : Except.ok after = r at h
  cases h with
  | none hempty =>
    obtain rfl := Except.ok.inj hr
    refine ⟨w.trail, ?_⟩
    cases command with
    | none => rfl
    | some c => simp [prepare, hempty c rfl]
  | done hruns hanswer =>
    obtain rfl := Except.ok.inj hr
    obtain ⟨c, hwords, hprepare⟩ := prepare_of_runs shop (τ := τ) (π := π) hruns
    obtain ⟨trail, hrun⟩ := runCommand_run hwords w
    exact ⟨trail, by rw [hprepare, hrun, hanswer]⟩
  | malformed | failed | passed => cases hr

theorem prepare_error {w : Traced (Deed τ π) σ} (h : Commanded shop w.state command (.error f)) :
    (Action.runFrom (prepare shop command) w).1 = .error (.fault f) := by
  generalize hr : Except.error f = r at h
  cases h with
  | none | done => cases hr
  | malformed hmalformed =>
    obtain rfl := Except.error.inj hr
    obtain ⟨text, rfl, hwords⟩ := hmalformed
    -- an empty line can be cut into words
    have hfull : (BuildCommand.line text).isEmpty = false := by
      rw [BuildCommand.isEmpty, beq_eq_false_iff_ne]
      rintro rfl
      cases hwords
    simp [prepare, hfull, runCommand, log, BuildCommand.words, hwords, Except.mapError,
      Action.ofExcept, Action.runFrom_bind]
  | failed hruns hanswer hfailure =>
    obtain rfl := Except.error.inj hr
    obtain ⟨c, hwords, hprepare⟩ := prepare_of_runs shop (τ := τ) (π := π) hruns
    obtain ⟨trail, hrun⟩ := runCommand_run hwords w
    rw [hprepare, hrun, hanswer]
    cases hfailure <;> rfl
  | passed hruns hanswer hother =>
    obtain rfl := Except.error.inj hr
    obtain ⟨c, hwords, hprepare⟩ := prepare_of_runs shop (τ := τ) (π := π) hruns
    obtain ⟨trail, hrun⟩ := runCommand_run hwords w
    rw [hprepare, hrun, hanswer]
    split
    · next h => cases h
    · next h =>
      cases h
      exact absurd (.os _) (hother _)
    · next h =>
      cases h
      exact absurd (.exit _ _) (hother _)
    · next h =>
      cases h
      rfl

/-- What is found decides whether the executable is refused. -/
theorem inspect_run (shop : Workshop σ) (executable : String) (w : Traced (Deed τ π) σ) :
    (Action.runFrom (inspect shop executable) w).1 =
      if (shop.isFile executable w.state).1 = false then
        .error (.fault (.build (.missing executable)))
      else if (shop.isExecutable executable (shop.isFile executable w.state).2).1 = false then
        .error (.fault (.build (.notExecutable executable)))
      else .ok () := by
  simp only [inspect, ask, Action.runFrom_bind, Traced.runFrom_current, Traced.runFrom_change,
    Action.runFrom_pure]
  cases (shop.isFile executable w.state).1 with
  | false => rfl
  | true =>
    cases hfound : (shop.isExecutable executable (shop.isFile executable w.state).2).1 <;>
      simp [Action.runFrom_bind, hfound]

/-- There is always one way in which it goes. -/
theorem exists_commanded (shop : Workshop σ) (env : σ) (command : Option BuildCommand) :
    ∃ r, Commanded shop env command r := by
  cases command with
  | none => exact ⟨_, .none nofun⟩
  | some c =>
    by_cases hempty : c.isEmpty = true
    · exact ⟨_, .none fun d hd => Option.some.inj hd ▸ hempty⟩
    have hfull : c.isEmpty = false := Bool.eq_false_iff.mpr hempty
    cases hwords : c.words with
    | error f =>
      cases c with
      | argv words => cases hwords
      | line text =>
        cases hcut : shellWords text with
        | ok words =>
          rw [BuildCommand.words, hcut] at hwords
          cases hwords
        | error e => exact ⟨_, .malformed ⟨text, rfl, hcut⟩⟩
    | ok argv =>
      have hruns : Runs (some c) argv := ⟨c, rfl, hfull, hwords⟩
      cases hanswer : shop.command argv env with
      | mk answer after =>
        cases answer with
        | ok _ => exact ⟨_, .done hruns hanswer⟩
        | error f =>
          have herror : (shop.command argv env).1 = .error f := by rw [hanswer]
          by_cases hfailure : ∃ reason, CommandFailure f reason
          · obtain ⟨reason, hfailure⟩ := hfailure
            exact ⟨_, .failed hruns herror hfailure⟩
          · exact ⟨_, .passed hruns herror (not_exists.mp hfailure)⟩

theorem exists_ensured (shop : Workshop σ) (env : σ) (executable : String)
    (command : Option BuildCommand) : ∃ r, Ensured shop env executable command r := by
  obtain ⟨r, hr⟩ := exists_commanded shop env command
  cases r with
  | error f => exact ⟨_, .stopped hr⟩
  | ok after =>
    cases hfile : (shop.isFile executable after).1 with
    | false => exact ⟨_, .missing hr hfile⟩
    | true =>
      cases hexecutable : (shop.isExecutable executable (shop.isFile executable after).2).1 with
      | false => exact ⟨_, .notExecutable hr hfile hexecutable⟩
      | true => exact ⟨_, .built hr hfile hexecutable⟩

variable {r : Except Fault Unit} {w : Traced (Deed τ π) σ}

theorem ensure_of_ensured (h : Ensured shop w.state executable command r) :
    (Action.runFrom ((external executable command).ensure shop) w).1 = r.mapError .fault := by
  rw [ensure_external, Action.runFrom_bind]
  cases h with
  | stopped hstopped =>
    have hprepare := prepare_error hstopped (w := w)
    cases hrun : Action.runFrom (prepare shop command) w with
    | mk outcome t =>
      rw [hrun] at hprepare
      obtain rfl : outcome = .error (.fault _) := hprepare
      rfl
  | missing hok hfile =>
    obtain ⟨trail, hrun⟩ := prepare_ok hok
    simp only [hrun, inspect_run, hfile, if_true]
    rfl
  | notExecutable hok hfile hexecutable =>
    obtain ⟨trail, hrun⟩ := prepare_ok hok
    simp only [hrun, inspect_run, hfile, hexecutable, if_true]
    rfl
  | built hok hfile hexecutable =>
    obtain ⟨trail, hrun⟩ := prepare_ok hok
    simp only [hrun, inspect_run, hfile, hexecutable]
    rfl

/-- Making sure that there is an external client ends in the one way in which it goes. -/
theorem ensure_iff :
    (Action.runFrom ((external executable command).ensure shop) w).1 = r.mapError .fault ↔
      Ensured shop w.state executable command r := by
  refine ⟨fun h => ?_, ensure_of_ensured⟩
  obtain ⟨r', hr'⟩ := exists_ensured shop w.state executable command
  rw [ensure_of_ensured hr'] at h
  obtain rfl : r' = r := by
    cases r' <;> cases r <;> cases h <;> rfl
  exact hr'

/-! ## §3 Problems -/

/-- What keeps an external client from being run: its command fails, or afterwards its executable is
not there or cannot be executed. -/
inductive Problem (shop : Workshop σ) (env : σ) (executable : String)
    (command : Option BuildCommand) : BuildError → Prop
  | command {argv : List String} {f : Fault} {reason : String} : Runs command argv →
    (shop.command argv env).1 = .error f → CommandFailure f reason →
    Problem shop env executable command (.command reason)
  | missing {after : σ} : Commanded shop env command (.ok after) →
    (shop.isFile executable after).1 = false →
    Problem shop env executable command (.missing executable)
  | notExecutable {after : σ} : Commanded shop env command (.ok after) →
    (shop.isFile executable after).1 = true →
    (shop.isExecutable executable (shop.isFile executable after).2).1 = false →
    Problem shop env executable command (.notExecutable executable)

/-- What else there is: the command line has no words, or its words raised something else. -/
def Escapes (shop : Workshop σ) (env : σ) (command : Option BuildCommand) (f : Fault) : Prop :=
  (∃ e, Malformed command e ∧ f = .value e) ∨
    ∃ argv, Runs command argv ∧ (shop.command argv env).1 = .error f ∧
      ∀ reason, ¬ CommandFailure f reason

/-- What it means how it ended to make sure that there is an external client. -/
structure Verdict (shop : Workshop σ) (env : σ) (executable : String)
    (command : Option BuildCommand) (ended : Except Stop Unit) : Prop where
  returns : ended = .ok () ↔ ∃ after, Commanded shop env command (.ok after) ∧
    (shop.isFile executable after).1 = true ∧
    (shop.isExecutable executable (shop.isFile executable after).2).1 = true
  refuses : ∀ e, ended = .error (.fault (.build e)) ↔ Problem shop env executable command e
  escapes : ∀ f, (∀ e, f ≠ .build e) →
    (ended = .error (.fault f) ↔ Escapes shop env command f)
  halts : ended ≠ .error .outOfFuel

theorem ensured_ok_iff : Ensured shop env executable command (.ok ()) ↔
    ∃ after, Commanded shop env command (.ok after) ∧ (shop.isFile executable after).1 = true ∧
      (shop.isExecutable executable (shop.isFile executable after).2).1 = true := by
  constructor
  · intro h
    cases h with
    | built hok hfile hexecutable => exact ⟨_, hok, hfile, hexecutable⟩
  · rintro ⟨after, hok, hfile, hexecutable⟩
    exact .built hok hfile hexecutable

/-- A command raises no build error itself, so there is one only where there is a problem. -/
theorem ensured_build_iff (hcommand : ∀ argv env e, (shop.command argv env).1 ≠ .error (.build e))
    {e : BuildError} :
    Ensured shop env executable command (.error (.build e)) ↔
      Problem shop env executable command e := by
  constructor
  · intro h
    cases h with
    | stopped hstopped =>
      cases hstopped with
      | failed hruns hanswer hfailure => exact .command hruns hanswer hfailure
      | passed _ hanswer _ => exact absurd hanswer (hcommand _ _ e)
    | missing hok hfile => exact .missing hok hfile
    | notExecutable hok hfile hexecutable => exact .notExecutable hok hfile hexecutable
  · intro h
    cases h with
    | command hruns hanswer hfailure => exact .stopped (.failed hruns hanswer hfailure)
    | missing hok hfile => exact .missing hok hfile
    | notExecutable hok hfile hexecutable => exact .notExecutable hok hfile hexecutable

theorem ensured_other_iff (hf : ∀ e, f ≠ .build e) :
    Ensured shop env executable command (.error f) ↔ Escapes shop env command f := by
  constructor
  · intro h
    cases h with
    | stopped hstopped =>
      cases hstopped with
      | malformed hmalformed => exact .inl ⟨_, hmalformed, rfl⟩
      | failed => exact absurd rfl (hf _)
      | passed hruns hanswer hother => exact .inr ⟨_, hruns, hanswer, hother⟩
    | missing => exact absurd rfl (hf _)
    | notExecutable => exact absurd rfl (hf _)
  · rintro (⟨e, hmalformed, rfl⟩ | ⟨argv, hruns, hanswer, hother⟩)
    · exact .stopped (.malformed hmalformed)
    · exact .stopped (.passed hruns hanswer hother)

theorem ensure_verdict (hcommand : ∀ argv env e, (shop.command argv env).1 ≠ .error (.build e)) :
    Verdict shop w.state executable command
      (Action.runFrom ((external executable command).ensure shop) w).1 where
  returns := (ensure_iff (r := .ok ())).trans ensured_ok_iff
  refuses e := (ensure_iff (r := .error (.build e))).trans (ensured_build_iff hcommand)
  escapes f hf := (ensure_iff (r := .error f)).trans (ensured_other_iff hf)
  halts h := by
    obtain ⟨r, hr⟩ := exists_ensured shop w.state executable command
    rw [ensure_of_ensured hr] at h
    cases r <;> cases h

end Build

/-! ## §4 The command line -/

namespace RunnerProgram

open CommandLine Fleet

variable {s : Setting σ π} {p : Parsed} {plan : Plan Double} {arguments : List String}
  {executable : String} {command : Option BuildCommand} {env : σ}

/-- The results table of a run without records. -/
def emptyResults : String := Csv.renderStrings Summary.columns

/-- A failed build was reported: nothing was done but to look for a client, and the table, if there
shall be one, has its header only. -/
structure Aborted (s : Setting σ π) (p : Parsed) (o : Outcome (Deed Double π)) : Prop where
  output : o.output = "Build failed, test aborted.\n"
  ending : o.ending = .exit 1
  notes : ∀ d ∈ o.notes, d.Builds
  results : ∀ path, p.filled? "results_csv" = some path →
    s.directory.write path emptyResults = .ok o.files
  unasked : p.filled? "results_csv" = none → o.files = s.directory

/-- The command line has a plan and asks for an external client. -/
structure Asks (s : Setting σ π) (arguments : List String) (p : Parsed) (plan : Plan Double)
    (executable : String) (command : Option BuildCommand) : Prop where
  parse : RunnerProgram.command.parse arguments = .ok p
  plan : planOf s.defaults p = .ok plan
  executable : p.filled? "client_exe" = some executable
  command : (p.filled? "build_cmd").map .line = command

/-- The table of the summary for a failed build has no rows. -/
theorem csv_unbuilt (pid : π → Int) (plan : Plan Double) :
    (unbuilt plan : Summary Double π).csv pid = emptyResults := by
  simp [Summary.csv, unbuilt, emptyResults]

theorem aborted_report (setup : LogSetup) {notes : List (Deed Double π)}
    (hnotes : ∀ d ∈ notes, d.Builds)
    (hresults : ∀ path, p.filled? "results_csv" = some path →
      ∃ files, s.directory.write path emptyResults = .ok files) :
    Aborted s p (report s p setup notes (unbuilt plan)) := by
  have htext : (unbuilt plan : Summary Double π).text = .ok "Build failed, test aborted." := rfl
  unfold report
  rw [htext]
  cases hpath : p.filled? "results_csv" with
  | none => exact ⟨rfl, rfl, hnotes, fun path h => (by cases hpath.symm.trans h), fun _ => rfl⟩
  | some path =>
    obtain ⟨files, hwrite⟩ := hresults path hpath
    simp only [csv_unbuilt, hwrite]
    refine ⟨rfl, rfl, fun d hd => ?_, fun other h => ?_, fun h => ?_⟩
    · rcases List.mem_append.mp hd with hd | hd
      · exact hnotes d hd
      · obtain rfl := List.mem_singleton.mp hd
        trivial
    · obtain rfl := Option.some.inj (hpath.symm.trans h)
      exact hwrite
    · cases hpath.symm.trans h

theorem Asks.run_eq (h : Asks s arguments p plan executable command) (env : σ) :
    ∃ setup, RunnerProgram.run s arguments env = perform s p setup plan env := by
  refine ⟨LogSetup.none.enable (p.flag "verbose"), ?_⟩
  simp [RunnerProgram.run, h.parse, h.executable, h.plan]

theorem Asks.atBuild (h : Asks s arguments p plan executable command) (env : σ) :
    (Fleet.atBuild (yardOf s p plan) { env }).1 =
      (Action.runFrom ((Build.external executable command).ensure s.workshop :
        Build.Act Double σ π Unit) ⟨env, []⟩).1 := by
  have hbuild : (yardOf s p plan).build = .external executable command := by
    simp only [yardOf, buildOf, h.executable, h.command]
  rw [← hbuild]
  rfl

/-- What else goes wrong with the build command leaves the program, and nothing was started then
either. -/
theorem Asks.faulted (h : Asks s arguments p plan executable command) {f : Fault}
    (hf : ∀ e, f ≠ .build e)
    (hended : (Fleet.atBuild (yardOf s p plan) { env }).1 = .error (.fault f)) :
    Faulted f (run s arguments env) ∧ ∀ d ∈ (run s arguments env).notes, d.Builds := by
  obtain ⟨setup, hrun⟩ := h.run_eq env
  have hatEnd := atEnd_of_unbuilt hended
  have hend : (atEnd (yardOf s p plan) { env }).1 = .error (.fault f) := by rw [hatEnd]
  obtain ⟨hfaulted, hnotes⟩ := perform_of_fault setup hend hf
  rw [hrun]
  refine ⟨hfaulted, fun d hd => ?_⟩
  rw [hnotes, hatEnd, Traced.history, List.mem_reverse] at hd
  exact (atBuild_records _ _).2 d hd

/-- It is sure that there is an external client exactly if its command, if it has one, succeeded and
its executable is a file and can be executed. A command that cannot be started or that fails, and an
executable that is not there or cannot be executed, are build errors, and the runner reports them
before anything was started. All else leaves it as it is: a command line that cannot be cut into
words, and what else the command raises. -/
theorem external_decided {s : Setting σ π}
    (hcommand : ∀ argv env e, (s.workshop.command argv env).1 ≠ .error (.build e))
    (executable : String) (command : Option BuildCommand) (start : Traced (Deed Double π) σ) :
    Build.Verdict s.workshop start.state executable command
      (Action.runFrom ((Build.external executable command).ensure s.workshop) start).1 ∧
    ∀ arguments p plan, Asks s arguments p plan executable command →
      (∀ path, p.filled? "results_csv" = some path →
        ∃ files, s.directory.write path emptyResults = .ok files) →
      (∀ e, Build.Problem s.workshop start.state executable command e →
        Aborted s p (run s arguments start.state)) ∧
      (∀ f, (∀ e, f ≠ .build e) → Build.Escapes s.workshop start.state command f →
        Faulted f (run s arguments start.state) ∧
          ∀ d ∈ (run s arguments start.state).notes, d.Builds) := by
  refine ⟨Build.ensure_verdict hcommand, fun arguments p plan hasks hresults => ⟨?_, ?_⟩⟩
  · intro e hproblem
    obtain ⟨setup, hrun⟩ := hasks.run_eq start.state
    have hended : (Fleet.atBuild (yardOf s p plan) { env := start.state }).1 =
        .error (.fault (.build e)) :=
      (hasks.atBuild start.state).trans (((Build.ensure_verdict hcommand).refuses e).mpr hproblem)
    obtain ⟨notes, hperform, hnotes⟩ := perform_of_unbuilt setup hended
    rw [hrun, hperform]
    exact aborted_report setup hnotes hresults
  · intro f hf hescapes
    have hended : (Fleet.atBuild (yardOf s p plan) { env := start.state }).1 = .error (.fault f) :=
      (hasks.atBuild start.state).trans
        (((Build.ensure_verdict hcommand).escapes f hf).mpr hescapes)
    exact hasks.faulted hf hended

/-- A machine on which every build command exits with code two. -/
def brokenSetting : Setting Unit Unit :=
  { promptSetting with
    workshop := { promptSetting.workshop with
      command := fun argv s => (.error (.commandFailed argv 2), s) } }

/-- One publisher and one subscriber, with a client that has to be built, and a table. -/
def buildFirst (line : String) : List String :=
  pair ++ ["--client-exe", "client", "--build-cmd", line, "--results-csv", "out.csv"]

theorem buildFirst_asks : ∃ p plan,
    Asks brokenSetting (buildFirst "make 'the client'") p plan "client"
      (some (.line "make 'the client'")) ∧ p.filled? "results_csv" = some "out.csv" := by
  obtain ⟨p, hparse, hplanned, hexecutable, hcommand, hresults⟩ :
      ∃ p ∈ (RunnerProgram.command.parse (buildFirst "make 'the client'")).toOption,
        (planOf brokenSetting.defaults p).toOption.isSome = true ∧
        p.filled? "client_exe" = some "client" ∧
        (p.filled? "build_cmd").map .line = some (BuildCommand.line "make 'the client'") ∧
        p.filled? "results_csv" = some "out.csv" := by decide +kernel
  obtain ⟨plan, hplan⟩ := Option.isSome_iff_exists.mp hplanned
  exact ⟨p, plan, ⟨eq_ok_of_mem_toOption hparse, eq_ok_of_mem_toOption hplan, hexecutable,
    hcommand⟩, hresults⟩

/-- There the failed command is reported, and the table has its header only. -/
theorem broken_build_aborts : ∃ p, p.filled? "results_csv" = some "out.csv" ∧
    Aborted brokenSetting p (run brokenSetting (buildFirst "make 'the client'") ()) := by
  obtain ⟨p, plan, hasks, hresults⟩ := buildFirst_asks
  have hcommand : ∀ argv env e,
      (brokenSetting.workshop.command argv env).1 ≠ .error (.build e) := nofun
  have hwritable : ∀ path, p.filled? "results_csv" = some path →
      ∃ files, brokenSetting.directory.write path emptyResults = .ok files := by
    intro path hpath
    obtain rfl := Option.some.inj (hresults.symm.trans hpath)
    have houtlet : brokenSetting.directory.outletAt "out.csv" = .ok (.file "out.csv") := by
      decide +kernel
    exact ⟨_, Directory.write_of_outlet houtlet _⟩
  have hproblem : Build.Problem brokenSetting.workshop () "client"
      (some (.line "make 'the client'"))
      (.command (commandFailedMessage ["make", "the client"] 2)) :=
    .command ⟨_, rfl, by decide, by decide +kernel⟩ rfl (.exit _ _)
  have hdecided := external_decided hcommand "client" (some (.line "make 'the client'")) ⟨(), []⟩
  exact ⟨p, hresults, (hdecided.2 _ p plan hasks hwritable).1 _ hproblem⟩

/-- How it ends on a machine that answers everything to make sure that there is a client which is
built by a command line. -/
def ensured (line : String) : Except Stop Unit :=
  (Action.runFrom ((Build.external "client" (some (.line line))).ensure promptSetting.workshop :
    Build.Act Double Unit Unit Unit) ⟨(), []⟩).1

/-- A command line with an open quote is no build error there: its fault leaves the program before
anything is printed. -/
theorem open_quote_escapes :
    ensured "gcc 'client.c" = .error (.fault (.value .openQuote)) ∧
    ¬ (ensured "gcc 'client.c" = .ok () ∨
      ∃ e, ensured "gcc 'client.c" = .error (.fault (.build e))) ∧
    (run promptSetting (buildFirst "gcc 'client.c") ()).ending = .fault (.value .openQuote) ∧
    (run promptSetting (buildFirst "gcc 'client.c") ()).output = "" := by
  have hended : ensured "gcc 'client.c" = .error (.fault (.value .openQuote)) := by decide +kernel
  refine ⟨hended, ?_, by decide +kernel, by decide +kernel⟩
  rw [hended]
  rintro (h | ⟨e, h⟩) <;> cases h

end RunnerProgram

end BrokerLoad
