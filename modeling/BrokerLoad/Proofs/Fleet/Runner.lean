import BrokerLoad.Fleet.Program
import BrokerLoad.Proofs.CommandLine.Plans
import BrokerLoad.Proofs.CommandLine.Read
import BrokerLoad.Proofs.Fleet.Heard
import BrokerLoad.Rehearsal.Clock

/-!
# The runner's command line

Most arguments of the runner are checked before anything starts. The times that it waits are not: a
time that the machine cannot wait for, or one that was given as an empty value, ends the runner when
it is needed, after processes were started. Here the ends of a command line are told apart, on a
machine that answers as long as its limits are kept.

## Main definitions

* `Host.Orderly`: a machine that answers within its limits, with outputs that are report lines.
* `Fleet.Bearable`: a run whose times are given and can be waited for.
* `Fleet.Reportable`: one whose messages can be counted, too.
* `RunnerProgram.Refused`, `Reported`, `Faulted`: how a command line ends.
* `RunnerProgram.Performed`: how one with a plan is performed.

## Main statements

* `Fleet.orderly_run_ends`: how a run ends on such a machine.
* `RunnerProgram.vetted_or_performed`: how a command line ends on it.
-/

namespace BrokerLoad

variable {τ σ π : Type}

/-! ## §1 Orderly machines -/

/-- An output of nothing but report lines; one that was not caught, or is empty, has no lines. -/
def Told (output : Option String) : Prop :=
  ∀ line ∈ lines (output.getD "").toList, "sent=".toList.isPrefixOf line = true

theorem Told.not_misleading {output : Option String} (h : Told output) :
    ¬ Misleading (output.getD "") := by
  rintro ⟨later, line, earlier, count, hlines, _, hcount, _⟩
  have hline : line ∈ lines (output.getD "").toList := by
    rw [← List.mem_reverse, hlines]
    simp
  exact absurd ((h line hline).symm.trans hcount.plain) Bool.noConfusion

/-- A machine that answers exactly as long as its limits are kept, though it may refuse to launch a
process and to stop one that is gone. When they are not kept, what it raises is no failed build.
Outputs are rows of report lines. -/
structure Host.Orderly (h : Host τ σ π) (F : Fates σ π) (limits : Limits τ) : Prop where
  answers : h.Answers F (Deed.Allowed limits)
  strict : h.Strict limits
  explains : ∀ (d : Deed τ π) (s : σ) (f : Fault), ¬ d.Allowed limits →
    (h.perform d s).1 = .error f → ∀ e, f ≠ .build e
  tells : ∀ output, h.Gives output → Told output

/-- How many launches there are among some deeds. -/
def Deed.launchCount (deeds : List (Deed τ π)) : Nat :=
  deeds.countP fun
    | .launch _ _ => true
    | _ => false

/-! ## §2 Runs on orderly machines -/

namespace Fleet

variable [Seconds τ] {y : Yard τ σ π} {F : Fates σ π} {limits : Limits τ} {u : World τ σ π}
  {fleet : Fleet τ σ π}

/-- A run that can go through: its times are given, the machine can sleep for the warm-up, and it can
wait for all the times that the run has come across. -/
structure Bearable (limits : Limits τ) (y : Yard τ σ π) (final : World τ σ π) : Prop where
  warmup : ∃ time, y.patience.warmup = some time ∧ limits.sleep time
  grace : y.patience.graceMargin ≠ none
  stop : y.patience.stopGrace ≠ none
  waits : final.Allowed limits

/-- A run that can be reported: it can go through, and the number of messages can be written. -/
structure Reportable (limits : Limits τ) (y : Yard τ σ π) (final : World τ σ π) : Prop where
  bearable : Bearable limits y final
  messages : isWritable (summaryOf y final).messagesSent = true

/-- On an orderly machine no start that can be written stops the run. -/
theorem not_balked (hhost : y.host.Orderly F limits) {role : Role} {index : Int} {f : Fault}
    {w : World τ σ π} (hnumbers : (commandNumbers y role).all isWritable = true) :
    ¬ Balked y role index w f u := by
  intro hbalked
  cases hbalked with
  | unwritable hlong => exact Bool.noConfusion (hnumbers.symm.trans hlong)
  | @raised _ env hanswer hrefusal =>
    have herror : (y.host.perform (launchDeed y role) w.state.env).1 = .error f := by
      simp only [launchDeed, Host.perform, bare, hanswer]
      rfl
    have hhandled :=
      hhost.answers (launchDeed y role) w.state.env f trivial ⟨f, by rw [hanswer]⟩ herror
    simp [launchDeed, Deed.handles, hrefusal] at hhandled

/-- What cuts the phases on an orderly machine does not look like a failed build. -/
theorem Felled.ne_build (hhost : y.host.Orderly F limits) (hwritable : ∀ role, Writable y role)
    {f : Fault} (h : Felled y F f u) (e : BuildError) : f ≠ .build e := by
  cases h with
  | @step v _ _ hcrewed hfails =>
    cases hfails with
    | @raised d _ env hok hadmits hanswer hhandles =>
      have hraised : (y.host.perform d v.state.env).1 = .error f := congrArg Prod.fst hanswer
      refine hhost.explains d _ f (fun hallowed => ?_) hraised e
      have hhandled := hhost.answers d _ f hallowed hadmits hraised
      exact absurd (hhandles.symm.trans hhandled) Bool.false_ne_true
    | illegible hcount =>
      obtain ⟨_, rfl⟩ := findReport_error hcount
      exact nofun
    | unwritable _ _ | lacking _ | noProcess _ _ _ => exact nofun
  | @start _ _ role _ _ _ hclients hbalked =>
    exact absurd hbalked (not_balked hhost (hwritable role hclients))

omit [Seconds τ] in
theorem Path.launchCount_le {h : Host τ σ π} {ok : Deed τ π → Prop} {w : World τ σ π}
    (hp : Path h F ok w u) :
    Deed.launchCount w.trail ≤ Deed.launchCount u.trail := by
  obtain ⟨new, hnew, _⟩ := hp.trail
  rw [hnew, Deed.launchCount, Deed.launchCount, List.countP_append]
  exact Nat.le_add_left _ _

theorem Spawned.launchCount {role : Role} {index : Int} {w : World τ σ π}
    (hu : Spawned y role index w u) :
    Deed.launchCount w.trail + 1 = Deed.launchCount u.trail := by
  cases hu <;> simp [Deed.launchCount, World.enlisted, launchDeed]

/-- What follows a path takes no launch back, however it ends. -/
theorem Goes.launched {α : Type} {a : Act τ σ π α} {P R : World τ σ π → Prop} {n : Nat}
    {ok : World τ σ π → Deed τ π → Prop} {Q : World τ σ π → α → World τ σ π → Prop}
    (ha : ∀ v, P v → Goes y F (ok v) (· = v) a (Q v))
    (hP : ∀ v, P v → n ≤ Deed.launchCount v.trail)
    (hR : ∀ v x u, P v → Q v x u → n ≤ Deed.launchCount u.trail → R u) :
    a.Meets P (fun _ => R) (Action.Faulty fun _ u => n ≤ Deed.launchCount u.trail) :=
  Goes.along ha (fun v x u hv hpath hq => hR v x u hv hq ((hP v hv).trans hpath.launchCount_le))
    fun v _ _ hv hpath => (hP v hv).trans hpath.launchCount_le

/-- The phases on an orderly machine, though they may be cut, start all subscribers first. -/
theorem phases_launch (hF : y.host.Respects F) (hhost : y.host.Orderly F limits)
    (hwritable : ∀ role, Writable y role) :
    (phases y).Meets (fun _ => True)
      (fun _ u => y.plan.subscribers ≤ Deed.launchCount u.trail)
      (Action.Faulty fun _ u => y.plan.subscribers ≤ Deed.launchCount u.trail) := by
  have hphases := phases_meets (y := y)
    (I := fun k u => 1 ≤ k → y.plan.subscribers ≤ Deed.launchCount u.trail)
    (E := fun _ u => y.plan.subscribers ≤ Deed.launchCount u.trail) ?_ ?_ ?_ ?_ ?_ ?_ ?_
  · exact hphases.mono (fun _ _ => by omega) (fun _ u hu => hu (by omega)) fun _ _ => id
  · exact fun k w record hw hk => Nat.le_trans (hw hk) (by simp [Deed.launchCount])
  -- every start calls the launcher
  · refine (spawnFrom_meets y .subscriber 0 y.plan.subscribers
      (I := fun k u => k ≤ Deed.launchCount u.trail) ?_ ?_).mono (fun _ _ => Nat.zero_le _) ?_
        fun _ _ => id
    · exact fun k w u _ _ hw hspawned => hspawned.launchCount ▸ Nat.succ_le_succ hw
    · intro k w f u _ hk _ hbalked
      have hclients : 0 < clients y .subscriber := by
        simp only [clients]
        omega
      exact absurd hbalked (not_balked hhost (hwritable .subscriber hclients))
    · exact fun _ u hu _ => by simpa using hu
  -- no later phase takes a launch back
  · exact Goes.launched (fun v _ => (warmUp_goes y F).pre fun _ _ => trivial)
      (fun v hv => hv (by omega)) fun _ _ _ _ _ hu _ => hu
  · exact Goes.launched (fun v _ => (spawnFrom_goes F y .publisher _).pre fun _ _ => trivial)
      (fun v hv => hv (by omega)) fun _ _ _ _ _ hu _ => hu
  · exact Goes.launched (fun v _ => joinPublishers_goes hF v)
      (fun v hv => hv (by omega)) fun _ _ _ _ _ hu _ => hu
  · exact fun positions => Goes.launched (fun v hv => askAll_goes hF v hv.2)
      (fun v hv => hv.1 (by omega)) fun _ _ _ _ hlists hu => ⟨fun _ => hu, hlists⟩
  · exact fun positions => Goes.launched (fun v hv => awaitAll_goes hF v hv.2)
      (fun v hv => hv.1 (by omega)) fun _ _ _ _ _ hu _ => hu

/-- However a run ends, the launcher was called for every subscriber. -/
theorem launchCount_atEnd (hF : y.host.Respects F) (hhost : y.host.Orderly F limits)
    (hwritable : ∀ role, Writable y role) (hbuilt : (atBuild y fleet).1 = .ok ()) :
    y.plan.subscribers ≤ Deed.launchCount (atEnd y fleet).2.trail := by
  have hphases := phases_launch hF hhost hwritable (atBuild y fleet).2 trivial
  have hcut : y.plan.subscribers ≤ Deed.launchCount (atCut y fleet).2.trail := by
    cases hend : (atCut y fleet).1 with
    | ok _ => exact hphases.of_ok hend
    | error stop =>
      cases stop with
      | fault f => exact hphases.of_error hend
      -- no loop of the phases counts fuel
      | outOfFuel => exact absurd hend (atCut_path hF fleet).2.1
  have hcleanup := hcut.trans (atCleanup_through hF fleet).launchCount_le
  rcases atEnd_world hbuilt with hend | ⟨d, _, hend⟩
  · rwa [hend]
  · rw [hend]
    exact hcleanup.trans (List.sublist_cons_self ..).countP_le

/-- Nothing cuts the phases of a bearable run. -/
theorem Bearable.uncut (h : Bearable limits y (atEnd y fleet).2) (hF : y.host.Respects F)
    (hhost : y.host.Orderly F limits) (hwritable : ∀ role, Writable y role)
    (hold : ∀ r ∈ fleet.records, r.settled = true) (hbuilt : (atBuild y fleet).1 = .ok ()) :
    (atCut y fleet).1 = .ok () := by
  obtain ⟨⟨time, htime, _⟩, hgrace, hstop, hwaits⟩ := h
  refine uncut_of_legible hF hhost.answers ⟨by simp [htime], hgrace, hstop⟩ hold hwritable ?_ ?_
  · exact fun output hgives => (hhost.tells output hgives).not_misleading
  · exact fun d hd _ => hwaits d (trail_atEnd hbuilt hd)

/-- A run that returns was bearable. -/
theorem bearable_of_returned (hstrict : y.host.Strict limits) {sum : Summary τ π}
    (hreturn : (atEnd y fleet).1 = .ok sum) : Bearable limits y (atEnd y fleet).2 := by
  obtain ⟨_, hcut⟩ := uncut_of_returned hreturn
  obtain ⟨⟨time, s, htime, hslept⟩, hgrace, hstop⟩ := served_of_uncut hcut
  refine ⟨⟨time, htime, ?_⟩, hgrace, hstop, ?_⟩
  · refine hstrict (.sleep time) s ?_
    simp only [Host.perform, bare, hslept]
    rfl
  · obtain ⟨_, d, hd, hworld⟩ := atEnd_of_returned hreturn
    rw [hworld]
    exact World.allowed_noted.2 ⟨hd.allowed, allowed_atCut hstrict hcut⟩

/-- On an orderly machine a run returns exactly if it is bearable. Otherwise it ends with a fault,
which is no failed build. -/
theorem orderly_run_ends (hF : y.host.Respects F) (hhost : y.host.Orderly F limits)
    (hwritable : ∀ role, Writable y role) (hold : ∀ r ∈ fleet.records, r.settled = true)
    (hbuilt : (atBuild y fleet).1 = .ok ()) :
    (Bearable limits y (atEnd y fleet).2 ∧
      (atEnd y fleet).1 = .ok (summaryOf y (atEnd y fleet).2)) ∨
    (¬ Bearable limits y (atEnd y fleet).2 ∧
      ∃ f, (atEnd y fleet).1 = .error (.fault f) ∧ ∀ e, f ≠ .build e) := by
  cases hcut : (atCut y fleet).1 with
  | ok _ =>
    have hreturn := returned_of_uncut hhost.answers hbuilt hcut
    refine .inl ⟨bearable_of_returned hhost.strict hreturn, ?_⟩
    obtain ⟨_, d, _, hworld⟩ := atEnd_of_returned hreturn
    rw [hreturn, hworld]
    rfl
  | error stop =>
    cases stop with
    -- no loop of the phases counts fuel
    | outOfFuel => exact absurd hcut (atCut_path hF fleet).2.1
    | fault f =>
      have hend := atEnd_passes hbuilt (atCleanup_of_answers hF hhost.answers fleet) hcut
      have hfelled := (atCut_healthy hF hold).2 f hcut
      refine .inr ⟨fun hbearable => ?_, f, hend, hfelled.ne_build hhost hwritable⟩
      have huncut := hbearable.uncut hF hhost hwritable hold hbuilt
      rw [hcut] at huncut
      cases huncut

end Fleet

/-! ## §3 Clients without a build command -/

namespace Build

/-- A client that no command has to build. -/
def Ready : Build → Prop
  | .bundled _ => True
  | .external _ command => command = none

/-- An action that is stopped by a failed build only. -/
def Explains (a : Act τ σ π Unit) : Prop :=
  a.Meets (fun _ => True) (fun _ _ => True) (Action.Faulty fun f _ => ∃ e, f = .build e)

/-- An answer decides whether the build fails. -/
theorem explains_ask {f : σ → Bool × σ} {a : Bool → Act τ σ π Unit} (ha : ∀ b, Explains (a b)) :
    Explains (ask f >>= a) :=
  Action.Meets.bind (R := fun _ _ => True) (fun _ _ => trivial) ha

theorem explains_unless (e : BuildError) {a : Act τ σ π Unit} (ha : Explains a) (found : Bool) :
    Explains (if (!found) = true then Action.fail (.build e) else a) := by
  cases found with
  | false => exact fun _ _ => ⟨e, rfl⟩
  | true => exact ha

/-- Such a client is there, or it is said why not. -/
theorem Ready.ensure {b : Build} (h : b.Ready) (shop : Workshop σ) :
    Explains (b.ensure shop : Act τ σ π Unit) := by
  have hnothing : Explains (pure () : Act τ σ π Unit) := fun _ _ => trivial
  cases b with
  | bundled interpreter =>
    have hnote : ∀ (d : Deed τ π) {a : Act τ σ π Unit}, Explains a →
        Explains (Traced.note d >>= fun _ => a) := fun d a ha =>
      Action.Meets.bind (R := fun _ _ => True) (fun _ _ => trivial) fun _ => ha
    exact hnote _ (hnote _ (explains_ask (explains_unless _ hnothing)))
  | external executable command =>
    obtain rfl : command = none := h
    refine explains_ask fun found => ?_
    cases found with
    | false => exact fun _ _ => ⟨_, rfl⟩
    | true => exact explains_ask (explains_unless _ hnothing)

end Build

theorem Fleet.atBuild_of_ready [Seconds τ] {y : Yard τ σ π} (h : y.build.Ready)
    (fleet : Fleet τ σ π) : (Fleet.atBuild y fleet).1 = .ok () ∨
      ∃ e, (Fleet.atBuild y fleet).1 = .error (.fault (.build e)) := by
  have hensure := h.ensure y.workshop (τ := τ) (π := π) ⟨fleet.env, []⟩ trivial
  rw [Fleet.atBuild_eq]
  cases hend : (Fleet.ensured y fleet.env).1 with
  | ok _ => exact .inl rfl
  | error stop =>
    have hstop := hensure.of_error hend
    cases stop with
    | outOfFuel => exact absurd hstop id
    | fault f =>
      obtain ⟨e, rfl⟩ := hstop
      exact .inr ⟨e, rfl⟩

/-! ## §4 The command line -/

namespace RunnerProgram

open CommandLine Fleet

variable {s : Setting σ π} {p : Parsed} {plan : Plan Double} {env : σ} {arguments : List String}
  {sum : Summary Double π} {o : Outcome (Deed Double π)}

/-- What the run of a command line works with. -/
def yardOf (s : Setting σ π) (p : Parsed) (plan : Plan Double) : Yard Double σ π :=
  { host := s.host, workshop := s.workshop, plan, build := buildOf s.interpreter p
    patience := patienceOf p }

/-- The summary of a run for which there is no client. -/
def unbuilt (plan : Plan Double) : Summary Double π :=
  { publishers := plan.publishers, subscribers := plan.subscribers, buildFailed := true }

/-- A command line that was refused before anything was done. -/
structure Refused (o : Outcome (Deed Double π)) : Prop where
  ending : o.ending = .exit 2
  usage : o.usage ≠ none
  output : o.output = ""
  notes : o.notes = []

/-- A summary was printed, once, and the program exits with its code. -/
structure Reported (sum : Summary Double π) (o : Outcome (Deed Double π)) : Prop where
  output : ∃ text, sum.text = .ok text ∧ o.output = text ++ "\n"
  ending : o.ending = .exit sum.exitCode
  code : sum.exitCode = 0 ∨ sum.exitCode = 1

/-- A fault left the program before anything was printed. -/
structure Faulted (f : Fault) (o : Outcome (Deed Double π)) : Prop where
  ending : o.ending = .fault f
  output : o.output = ""

/-- How a command line is performed: without a client a summary says so, and with one a run that can
be reported is, while any other ends with a fault after the subscribers were started. -/
inductive Performed (limits : Limits Double) (y : Yard Double σ π) (env : σ)
    (o : Outcome (Deed Double π)) : Prop where
  | unbuilt {e : BuildError} (hbuild : (atBuild y { env }).1 = .error (.fault (.build e)))
      (hreported : Reported (unbuilt y.plan) o) : Performed limits y env o
  | reported (hbuild : (atBuild y { env }).1 = .ok ())
      (hreportable : Reportable limits y (atEnd y { env }).2)
      (hreported : Reported (summaryOf y (atEnd y { env }).2) o) : Performed limits y env o
  | faulted {f : Fault} (hbuild : (atBuild y { env }).1 = .ok ())
      (hnot : ¬ Reportable limits y (atEnd y { env }).2) (hfaulted : Faulted f o)
      (hlate : y.plan.subscribers ≤ Deed.launchCount o.notes) : Performed limits y env o

/-- A summary with a text is reported, if the results can be written. -/
theorem reported_of_text {text : String} (htext : sum.text = .ok text)
    (hresults : ∀ path, p.filled? "results_csv" = some path →
      ∃ files, s.directory.write path (sum.csv s.host.pid) = .ok files)
    (setup : LogSetup) (notes : List (Deed Double π)) :
    Reported sum (report s p setup notes sum) := by
  have hcode : sum.exitCode = 0 ∨ sum.exitCode = 1 := by
    unfold Summary.exitCode
    split
    · exact .inr rfl
    · exact .inl rfl
  unfold report
  rw [htext]
  cases hpath : p.filled? "results_csv" with
  | none => exact ⟨⟨text, htext, rfl⟩, rfl, hcode⟩
  | some path =>
    obtain ⟨files, hwrite⟩ := hresults path hpath
    simp only [hwrite]
    exact ⟨⟨text, htext, rfl⟩, rfl, hcode⟩

/-- The client of a command line without a build command needs none. -/
theorem ready_buildOf {interpreter : String} (h : p.filled? "build_cmd" = none) :
    (buildOf interpreter p).Ready := by
  unfold buildOf
  split
  · rw [h]
    rfl
  · trivial

/-- Why there is no plan. -/
theorem failsAs_planOf (defaults : Defaults) (p : Parsed) :
    FailsAs Unplanned (planOf defaults p) :=
  (p.failsAs_broker _).bind fun broker =>
    failsAs_plan (failsAs_needed _ _) (failsAs_needed _ _) (failsAs_needed _ _)
      (failsAs_needed _ _) (failsAs_needed _ _)
      (failsAs_settings broker _ (p.failsAs_qos _) (.ok _) none none)

/-- The numbers of a command line can be written on those of the clients. -/
theorem writable_of_planOf (hparse : command.parse arguments = .ok p)
    (hplan : planOf s.defaults p = .ok plan) (role : Role) : Writable (yardOf s p plan) role := by
  obtain ⟨broker, hbroker, hattempts⟩ := exists_of_bind_ok hplan
  obtain ⟨_, _, k, _, _, hk, hsettings, _, _, hpayload⟩ := exists_of_ofAttempts hattempts
  obtain ⟨hsame, hkeepalive⟩ := settings_of_ofAttempts hsettings
  have hport : isWritable plan.settings.broker.port = true := by
    rw [hsame]
    exact Parsed.isWritable_of_broker hbroker
  have hqos : isWritable plan.settings.qos = true :=
    isWritable_of_le (n := 2) (by have := plan.settings.qos_mem; omega) rfl
  have halive : isWritable plan.settings.keepalive = true := by
    rw [← Except.ok.inj hkeepalive]
    rfl
  have hsize : isWritable (plan.payloadSize : Int) = true := by
    rw [hpayload]
    exact isWritable_of_le (by omega) (Parsed.isWritable_of_count hparse rfl hk)
  intro _
  unfold commandNumbers yardOf
  cases buildOf s.interpreter p <;> cases role <;> simp [hport, hqos, halive, hsize]

/-- The run of a command line ends where the parts of the run end. -/
theorem runFrom_run {y : Yard Double σ π} {ending : Except Stop (Summary Double π)}
    (hend : (atEnd y { env }).1 = ending) :
    Action.runFrom (Fleet.run y) { state := { env } } = (ending, (atEnd y { env }).2) :=
  Prod.ext hend rfl

/-- A run is performed, and what it returns is reported. -/
theorem perform_of_ok (setup : LogSetup)
    (hend : (atEnd (yardOf s p plan) { env }).1 = .ok sum) :
    perform s p setup plan env =
      report s p setup (atEnd (yardOf s p plan) { env }).2.history sum := by
  unfold perform
  rw [← yardOf]
  simp only [runFrom_run hend]

/-- A run without a client is reported as such, when nothing was done but to look for one. -/
theorem perform_of_unbuilt (setup : LogSetup) {e : BuildError}
    (hbuild : (atBuild (yardOf s p plan) { env }).1 = .error (.fault (.build e))) :
    ∃ notes, perform s p setup plan env = report s p setup notes (unbuilt plan) ∧
      ∀ d ∈ notes, d.Builds := by
  have hatEnd := atEnd_of_unbuilt hbuild
  have hend : (atEnd (yardOf s p plan) { env }).1 = .error (.fault (.build e)) := by rw [hatEnd]
  unfold perform
  rw [← yardOf]
  simp only [runFrom_run hend]
  refine ⟨_, rfl, fun d hd => ?_⟩
  rcases List.mem_append.mp hd with hbuilding | hlog
  · rw [hatEnd, Traced.history, List.mem_reverse] at hbuilding
    exact (atBuild_records _ _).2 d hbuilding
  · obtain rfl := List.mem_singleton.mp hlog
    trivial

/-- Any other fault leaves the program. -/
theorem perform_of_fault (setup : LogSetup) {f : Fault}
    (hend : (atEnd (yardOf s p plan) { env }).1 = .error (.fault f)) (hf : ∀ e, f ≠ .build e) :
    Faulted f (perform s p setup plan env) ∧
      (perform s p setup plan env).notes = (atEnd (yardOf s p plan) { env }).2.history := by
  unfold perform
  rw [← yardOf]
  simp only [runFrom_run hend]
  split
  · next heq => cases heq
  · next e heq =>
    obtain rfl : f = .build e := by simpa using heq
    exact absurd rfl (hf e)
  · next stop _ heq =>
    cases heq
    exact ⟨⟨rfl, rfl⟩, rfl⟩

/-- A summary whose messages cannot be counted is not printed. -/
theorem report_of_long {y : Yard Double σ π} {w : World Double σ π}
    (h : isWritable (summaryOf y w).messagesSent = false) (setup : LogSetup)
    (notes : List (Deed Double π)) :
    Faulted (.value .unwritableInteger) (report s p setup notes (summaryOf y w)) ∧
      (report s p setup notes (summaryOf y w)).notes = notes := by
  unfold report
  rw [Summary.text_of_unwritable rfl h]
  exact ⟨⟨rfl, rfl⟩, rfl⟩

/-- On an orderly machine a planned command line is performed to its end. -/
theorem perform_performed {F : Fates σ π} {limits : Limits Double} (hF : s.host.Respects F)
    (hhost : s.host.Orderly F limits) (hready : p.filled? "build_cmd" = none)
    (hresults : ∀ path text, p.filled? "results_csv" = some path →
      ∃ files, s.directory.write path text = .ok files)
    (hparse : command.parse arguments = .ok p) (hplan : planOf s.defaults p = .ok plan)
    (setup : LogSetup) (env : σ) :
    Performed limits (yardOf s p plan) env (perform s p setup plan env) := by
  rcases atBuild_of_ready (y := yardOf s p plan) (ready_buildOf hready) { env } with
    hbuilt | ⟨e, hunbuilt⟩
  · have hnone : ∀ r ∈ ({ env } : Fleet Double σ π).records, r.settled = true := by simp
    have hwritable := writable_of_planOf hparse hplan
    -- the deeds of a run that was not reported are those of the run
    have hlate : ∀ {o : Outcome (Deed Double π)},
        o.notes = (atEnd (yardOf s p plan) { env }).2.history →
        (yardOf s p plan).plan.subscribers ≤ Deed.launchCount o.notes := by
      intro o hnotes
      rw [hnotes, Traced.history, Deed.launchCount, List.countP_reverse]
      exact launchCount_atEnd hF hhost hwritable hbuilt
    rcases orderly_run_ends hF hhost hwritable hnone hbuilt with
      ⟨hbearable, hend⟩ | ⟨hnot, f, hend, hf⟩
    · cases hmessages :
          isWritable (summaryOf (yardOf s p plan) (atEnd (yardOf s p plan) { env }).2).messagesSent with
      | true =>
        have htext := Summary.text_of_writable rfl hmessages
        refine .reported hbuilt ⟨hbearable, hmessages⟩ ?_
        rw [perform_of_ok setup hend]
        exact reported_of_text htext (fun path => hresults path _) setup _
      -- the run has returned, but its summary cannot be printed
      | false =>
        obtain ⟨hfaulted, hnotes⟩ := report_of_long (s := s) (p := p) hmessages setup
          (atEnd (yardOf s p plan) { env }).2.history
        rw [← perform_of_ok setup hend] at hfaulted hnotes
        refine .faulted hbuilt (fun hreportable => ?_) hfaulted (hlate hnotes)
        exact absurd (hmessages.symm.trans hreportable.messages) Bool.false_ne_true
    · obtain ⟨hfaulted, hnotes⟩ := perform_of_fault setup hend hf
      exact .faulted hbuilt (fun hreportable => hnot hreportable.bearable) hfaulted (hlate hnotes)
  · obtain ⟨notes, hperform, -⟩ := perform_of_unbuilt setup hunbuilt
    refine .unbuilt hunbuilt ?_
    rw [hperform]
    exact reported_of_text rfl (fun path => hresults path _) setup notes

/-- On a machine that answers exactly as long as its limits are kept, a command line that asks for no
help and no build is refused before anything is done, or ends with a fault for an empty value before
anything is done, or is performed. What is performed ends with a summary and its code, unless the
machine is to wait for a time that it cannot wait for, a waiting time is an empty value, or the number
of messages cannot be written. -/
theorem vetted_or_performed {F : Fates σ π} {limits : Limits Double} (hF : s.host.Respects F)
    (hhost : s.host.Orderly F limits) (hhelp : command.parse arguments ≠ .error .help)
    (hready : ∀ p, command.parse arguments = .ok p → p.filled? "build_cmd" = none)
    (hresults : ∀ p path text, command.parse arguments = .ok p →
      p.filled? "results_csv" = some path → ∃ files, s.directory.write path text = .ok files)
    (env : σ) :
    Refused (run s arguments env) ∨
    (∃ use, Faulted (.emptyValue use) (run s arguments env) ∧ (run s arguments env).notes = []) ∨
    ∃ p plan, command.parse arguments = .ok p ∧ planOf s.defaults p = .ok plan ∧
      Performed limits (yardOf s p plan) env (run s arguments env) := by
  unfold run
  cases hparse : command.parse arguments with
  | error refusal =>
    cases refusal with
    | help => exact absurd hparse hhelp
    | usage e => exact .inl ⟨rfl, nofun, rfl, rfl⟩
  | ok p =>
    have hnone := hready p hparse
    dsimp only
    rw [if_neg (by simp [hnone])]
    cases hplan : planOf s.defaults p with
    | error f =>
      rcases failsAs_planOf s.defaults p f hplan with ⟨e, rfl⟩ | ⟨use, rfl⟩
      · exact .inl ⟨rfl, nofun, rfl, rfl⟩
      · exact .inr (.inl ⟨use, ⟨rfl, rfl⟩, rfl⟩)
    | ok plan =>
      refine .inr (.inr ⟨p, plan, rfl, hplan, ?_⟩)
      exact perform_performed hF hhost hnone (fun path text => hresults p path text hparse) hparse
        hplan _ env

/-- A sleep that refuses what is no time. -/
def asleep (time : Double) : Except Fault Unit :=
  match sleepFault? time none with
  | some f => .error f
  | none => .ok ()

theorem asleep_eq_ok_iff {time : Double} : asleep time = .ok () ↔ sleepFault? time none = none := by
  unfold asleep
  cases sleepFault? time none with
  | none => exact iff_of_true rfl rfl
  | some f => exact iff_of_false nofun nofun

/-- What such a sleep raises is a value error. -/
theorem asleep_error {time : Double} {f : Fault} (h : asleep time = .error f) :
    ∃ e, f = .value e := by
  unfold asleep at h
  cases hfault : sleepFault? time none with
  | none =>
    rw [hfault] at h
    cases h
  | some g =>
    rw [hfault] at h
    obtain rfl : g = f := Except.error.inj h
    unfold sleepFault? at hfault
    split at hfault
    · exact ⟨_, (Option.some.inj hfault).symm⟩
    · split at hfault
      · exact ⟨_, (Option.some.inj hfault).symm⟩
      · cases hfault

/-- What the machine on which every client ends at once raises comes from its sleep. -/
theorem prompt_error {d : Deed Double Unit} {s : Unit} {f : Fault}
    (h : ((Bench.prompt asleep).perform d s).1 = .error f) :
    ∃ time, d = .sleep time ∧ asleep time = .error f := by
  cases d with
  | sleep time =>
    refine ⟨time, rfl, ?_⟩
    cases hasleep : asleep time with
    | ok _ =>
      simp only [Host.perform, bare, Bench.prompt, hasleep] at h
      cases h
    | error g =>
      simp only [Host.perform, bare, Bench.prompt, hasleep] at h
      exact congrArg Except.error (Except.error.inj h)
  | collect p limit | await p limit => cases limit <;> cases h
  | _ => cases h

/-- That machine is orderly. It can wait for any time, but not sleep for any. -/
theorem prompt_orderly : (Bench.prompt asleep).Orderly Fates.blank
    { Limits.any with sleep := fun time => sleepFault? time none = none } where
  answers d s f hallowed _ herror := by
    obtain ⟨time, rfl, hrefused⟩ := prompt_error herror
    cases hrefused.symm.trans (asleep_eq_ok_iff.mpr hallowed)
  strict d s h := by
    cases d with
    | sleep time =>
      refine asleep_eq_ok_iff.mp ?_
      cases hasleep : asleep time with
      | ok _ => rfl
      | error f =>
        simp only [Host.perform, bare, Bench.prompt, hasleep] at h
        cases h
    | collect p limit | await p limit => cases limit <;> trivial
    | _ => trivial
  explains d s f _ herror := by
    obtain ⟨time, rfl, hrefused⟩ := prompt_error herror
    obtain ⟨e, rfl⟩ := asleep_error hrefused
    intro e heq
    cases heq
  tells output hgives := by
    have houtput : output = some "sent=5 elapsed=2.000" := by
      obtain ⟨p, code, ⟨s, t, hgives⟩ | ⟨limit, s, t, hgives⟩⟩ := hgives
      · cases hgives
        rfl
      · cases hgives
        rfl
    rw [houtput, Told]
    decide +kernel

/-- What the runner needs to use it. -/
def promptSetting : Setting Unit Unit := Bench.promptly asleep

/-- One publisher and one subscriber. -/
def pair : List String := ["1", "1", "1", "1.0", "0.5"]

theorem pair_parsed : ∃ p, command.parse pair = .ok p ∧ p.filled? "build_cmd" = none ∧
    p.filled? "results_csv" = none := by
  obtain ⟨p, hparse, hunnamed⟩ : ∃ p ∈ (command.parse pair).toOption,
      p.filled? "build_cmd" = none ∧ p.filled? "results_csv" = none := by decide +kernel
  exact ⟨p, eq_ok_of_mem_toOption hparse, hunnamed⟩

/-- On that machine a run with one client of each role is reported. -/
theorem pair_reported : ∃ sum, Reported sum (run promptSetting pair ()) := by
  obtain ⟨p, hparse, hready, hresults⟩ := pair_parsed
  have hending : (run promptSetting pair ()).ending = .exit 0 := by decide +kernel
  have hhelp : command.parse pair ≠ .error .help := by rw [hparse]; nofun
  have hnone : ∀ q, command.parse pair = .ok q → q.filled? "build_cmd" = none := by
    intro q hq
    obtain rfl := Except.ok.inj (hparse.symm.trans hq)
    exact hready
  have hunwritten : ∀ q path text, command.parse pair = .ok q →
      q.filled? "results_csv" = some path →
      ∃ files, promptSetting.directory.write path text = .ok files := by
    intro q path text hq hpath
    obtain rfl := Except.ok.inj (hparse.symm.trans hq)
    cases hresults.symm.trans hpath
  -- it exits with zero, so it was not refused, and no fault has left it
  rcases vetted_or_performed (s := promptSetting) (Bench.prompt asleep).respects_blank
    prompt_orderly hhelp hnone hunwritten () with
    hrefused | ⟨use, hfaulted, _⟩ | ⟨_, plan, _, _, hperformed⟩
  · cases hending.symm.trans hrefused.ending
  · cases hending.symm.trans hfaulted.ending
  · cases hperformed with
    | unbuilt _ hreported => exact ⟨_, hreported⟩
    | reported _ _ hreported => exact ⟨_, hreported⟩
    | faulted _ _ hfaulted _ => cases hending.symm.trans hfaulted.ending

/-- One subscriber, which shall warm up for less than no time. -/
def negativeWarmup : List String := ["0", "1", "1", "1.0", "0.5", "--warmup", "-1"]

/-- It is not refused, and nothing is reported: the subscriber is started, and then a fault leaves the
program. -/
theorem negative_warmup_faults :
    (∃ f, Faulted f (run promptSetting negativeWarmup ())) ∧
      0 < Deed.launchCount (run promptSetting negativeWarmup ()).notes ∧
      ¬ (Refused (run promptSetting negativeWarmup ()) ∨
        ∃ sum, Reported sum (run promptSetting negativeWarmup ())) := by
  have hending : (run promptSetting negativeWarmup ()).ending =
      .fault (.value (.other "sleep length must be non-negative")) := by decide +kernel
  refine ⟨⟨_, hending, by decide +kernel⟩, by decide +kernel, ?_⟩
  rintro (hrefused | ⟨sum, hreported⟩)
  · cases hending.symm.trans hrefused.ending
  · cases hending.symm.trans hreported.ending

end RunnerProgram

end BrokerLoad
