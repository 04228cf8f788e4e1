import BrokerLoad.Client.Program
import BrokerLoad.Proofs.Client.Count
import BrokerLoad.Proofs.Fleet.Told
import BrokerLoad.Rehearsal.Network

/-!
# What a publisher's program prints

A client program in the mode `pub` either succeeds and prints one line, the report of its run, or it
ends in another way and prints nothing. Here that line is followed to the end: its count is that of
the publishes that the network library accepted, and the runner reads that count from the output,
whatever stands before it and whatever lines without a report follow it.

## Main definitions

* `Outcome.Mute`: an ending without success and without output.
* `ClientProgram.Printed`: an ending with success and the report of the run.

## Main statements

* `ClientProgram.publish_printed`: a publisher's program ends in one of the two ways.
* `ClientProgram.publisher_reports`: the runner reads the count that was sent.
-/

namespace BrokerLoad

/-! ## §1 Endings without a report -/

/-- The command line did not succeed and printed nothing. -/
structure Outcome.Mute {ν : Type} (o : Outcome ν) : Prop where
  ending : o.ending ≠ .exit 0
  output : o.output = ""

theorem Outcome.Mute.of_exit {ν : Type} {o : Outcome ν} {code : Int} (hcode : code ≠ 0)
    (hending : o.ending = .exit code) (houtput : o.output = "") : o.Mute :=
  ⟨fun hzero => hcode (Ending.exit.inj (hending.symm.trans hzero)), houtput⟩

theorem Outcome.ofRefusal_mute {ν : Type} (files : Directory) (setup : LogSetup)
    {refusal : CommandLine.Refusal} (h : refusal ≠ .help) :
    (ofRefusal files setup refusal : Outcome ν).Mute := by
  cases refusal with
  | help => exact absurd rfl h
  | usage e => exact .of_exit (by decide) rfl rfl

theorem Ending.ofStop_ne (stop : Stop) (code : Int) : Ending.ofStop stop ≠ .exit code := by
  cases stop <;> exact nofun

namespace ClientProgram

open CommandLine

variable {σ : Type} (s : Setting σ) (setup : LogSetup) (env : σ)

theorem refused_mute (notes : List (Note Double)) (e : ConfigError) :
    (refused s setup env notes e).Mute := by
  have husage : exitUsage ≠ 0 := by decide
  exact .of_exit husage rfl rfl

theorem unsettled_mute (f : Fault) : (unsettled s setup env f).Mute := by
  cases f with
  | config e => exact refused_mute s setup env [] e
  | _ => exact ⟨nofun, rfl⟩

/-- A client that did not return leaves no output. -/
theorem conclude_mute (files : Directory) {life : Life σ} {stop : Stop}
    (h : life.outcome = .error stop) : (conclude s setup files life).Mute := by
  have hconnect : exitConnect ≠ 0 := by decide
  unfold conclude
  rw [h]
  split
  · next hok => cases hok
  · exact .of_exit hconnect rfl rfl
  · exact .of_exit hconnect rfl rfl
  · exact refused_mute s setup _ _ _
  · exact ⟨Ending.ofStop_ne _ _, rfl⟩

/-! ## §2 The report of a run -/

/-- The program succeeded and printed the report of its run, which tells the truth. -/
structure Printed (s : Setting σ) (env : σ) (o : Outcome (Note Double)) (r : Report Double) :
    Prop where
  ending : o.ending = .exit 0
  output : o.output = r.line ++ "\n"
  counts : Publisher.Counts s.wire env o.notes r
  writable : isWritable r.sent = true

/-- Making the library's client is nothing that the client does, and no exchange. -/
theorem create_run (c : Connection Double) (wire : Wire Double σ) (env : σ) :
    ∃ notes, Action.runFrom (c.create wire) { state := { env } } =
        (.ok (), { state := { env }, trail := notes.reverse }) ∧
      wire.exchanges env notes = [] ∧ wire.after env notes = env ∧ deedsOf notes = [] := by
  let made : Note Double := ⟨wire.timer.now env, .network (.client c.client)⟩
  cases husername : c.username with
  | none =>
    refine ⟨[made], ?_, rfl, rfl, rfl⟩
    rw [Connection.create, husername]
    rfl
  | some username =>
    refine ⟨[made, ⟨wire.timer.now env, .network (.credentials username c.password)⟩], ?_, rfl, rfl,
      rfl⟩
    rw [Connection.create, husername]
    rfl

/-- What is no exchange and no deed does not change what a report tells. -/
theorem counts_after {wire : Wire Double σ} {before notes : List (Note Double)} {r : Report Double}
    (h : Publisher.Counts wire env notes r) (hexchanges : wire.exchanges env before = [])
    (hafter : wire.after env before = env) (hdeeds : deedsOf before = []) :
    Publisher.Counts wire env (before ++ notes) r where
  sent := by rw [Wire.exchanges_append, hexchanges, hafter, List.nil_append, h.sent]
  elapsed := by
    have hboth : deedsOf (before ++ notes) = deedsOf notes := by
      rw [deedsOf, List.filter_append]
      exact congrArg (· ++ _) hdeeds
    rw [hboth]
    exact h.elapsed

/-- A publisher's program ends without a report, or it prints the report of its run. -/
theorem publish_printed (settings : ClientSettings) (p : Parsed) :
    (publish s setup settings p env).Mute ∨
      ∃ r, Printed s env (publish s setup settings p env) r := by
  unfold publish
  cases planOf settings p with
  | error f => exact .inl (unsettled_mute s setup env f)
  | ok plan =>
    let c := connectionOf s settings p "pub"
    let body := Publisher.run (c.surroundings s.wire s.fuel keepMessages c.delivers s.memory) plan
      Publisher.Tuning.standard s.fuel
    obtain ⟨before, hcreate, hexchanges, hafter, hdeeds⟩ := create_run c s.wire env
    let first : Traced (Note Double) (Client (Line σ) (Option MessageLog)) :=
      { state := { env := { env }, kept := none }, trail := before.reverse }
    have hlive : live s c none env (fun w => Publisher.run w plan Publisher.Tuning.standard s.fuel)
        (·.line ++ "\n") =
      { outcome := (Action.runFrom body first).1.map (·.line ++ "\n")
        log := (Action.runFrom body first).2.state.kept
        env := (Action.runFrom body first).2.state.env.env
        notes := (Action.runFrom body first).2.history } := by
      rw [live, hcreate]
      rfl
    dsimp only
    rw [hlive]
    cases hrun : Action.runFrom body first with
    | mk outcome t =>
      cases outcome with
      | error stop => exact .inl (conclude_mute s setup _ rfl)
      | ok r =>
        obtain ⟨notes, hhistory, hcounts⟩ := Publisher.run_counts hrun
        have hnotes : t.history = before ++ notes := by
          rw [hhistory, Traced.history, List.reverse_reverse]
        refine .inr ⟨r, rfl, rfl, ?_, Publisher.isWritable_of_run hrun⟩
        change Publisher.Counts s.wire env t.history r
        rw [hnotes]
        exact counts_after env hcounts hexchanges hafter hdeeds

/-- A command line in the mode `pub`, help aside, does no more. -/
theorem run_printed {arguments : List String}
    (hhelp : parseModes command modes arguments ≠ .error .help)
    (hmode : ∀ p, parseModes command modes arguments = .ok p → p.mode = "pub") :
    (run s arguments env).Mute ∨ ∃ r, Printed s env (run s arguments env) r := by
  unfold run
  cases hparse : parseModes command modes arguments with
  | error refusal =>
    refine .inl (Outcome.ofRefusal_mute s.directory .none ?_)
    rintro rfl
    exact hhelp hparse
  | ok p =>
    dsimp only
    cases settingsOf s.defaults p with
    | error f => exact .inl (unsettled_mute s _ env f)
    | ok settings =>
      have hpublishes : ¬ p.mode = "sub" := by
        rw [hmode p hparse]
        decide
      dsimp only
      rw [if_neg hpublishes]
      exact publish_printed s _ env settings p

/-! ## §3 From the output to the record -/

/-- A publisher's program, help aside, either succeeds and prints one line, or prints nothing. The
runner reads from the line, behind complete lines and in front of lines that say nothing, the number
of publishes that the network library accepted, and the time of the run as its three places say;
without the line it leaves the record as it is. -/
theorem publisher_reports {arguments : List String}
    (hhelp : parseModes command modes arguments ≠ .error .help)
    (hmode : ∀ p, parseModes command modes arguments = .ok p → p.mode = "pub") :
    let o := run s arguments env
    (o.ending = .exit 0 → ∃ r : Report Double, ∃ y : Double,
      o.output = r.line ++ "\n" ∧ lines o.output.toList = [r.line.toList] ∧
      Publisher.Counts s.wire env o.notes r ∧
      Seconds.read (Seconds.fixed 3 r.elapsed) = .ok y ∧
      ∀ before after : String, Complete before.toList → (∀ l ∈ lines after.toList, Silent l) →
        Fleet.Tells (before ++ o.output ++ after) r.sent y) ∧
    (o.ending ≠ .exit 0 → o.output = "" ∧ Fleet.TellsNothing Double o.output) := by
  intro o
  rcases run_printed s env hhelp hmode with hmute | ⟨r, hprinted⟩
  · refine ⟨fun hzero => absurd hzero hmute.ending, fun _ => ⟨hmute.output, ?_⟩⟩
    rw [hmute.output]
    exact Fleet.tellsNothing rfl
  · refine ⟨fun _ => ?_, fun hne => absurd hprinted.ending hne⟩
    obtain ⟨y, hy⟩ := Double.read_fixed 2 r.elapsed
    refine ⟨r, y, hprinted.output, ?_, hprinted.counts, hy, ?_⟩
    · rw [hprinted.output, String.toList_append]
      exact lines_line r.isLineEnd_of_mem_line []
    · intro before after hbefore hafter
      rw [hprinted.output]
      exact Fleet.tells_report (findReport_line hprinted.writable hy hbefore hafter)

/-- A network that accepts the connection and refuses the second of three messages. -/
def choosy : NetworkRehearsal Double where
  script :=
    { loops := [{ events := [.answered ⟨"Success", false⟩] }]
      sends := [{}, { code := 5 }] }
  now := .ofDecimal false 0 0

/-- A program on a scripted network. -/
def scripted : Setting (NetworkRehearsal Double) where
  wire := ⟨NetworkRehearsal.network, NetworkRehearsal.timer⟩
  pid := 1
  fuel := 40

/-- A message of one byte every tenth of a second, for a quarter of a second. -/
def threeSends : List String := ["pub", "1", "0.25", "0.1"]

/-- Two messages were sent, and the runner reads two, between lines of other programs. -/
theorem refused_send_not_reported :
    parseModes command modes threeSends ≠ .error .help ∧
    (∀ p, parseModes command modes threeSends = .ok p → p.mode = "pub") ∧
    (let o := run scripted threeSends choosy
    o.ending = .exit 0 ∧ o.output = "sent=2 elapsed=0.260\n" ∧
    ∃ y : Double, Fleet.Tells ("sent=7\n" ++ o.output ++ "bye\n") 2 y) := by
  have hparse : (parseModes command modes threeSends).toOption.map (·.mode) = some "pub" := by
    decide +kernel
  have hhelp : parseModes command modes threeSends ≠ .error .help := by
    intro h
    rw [h] at hparse
    cases hparse
  have hmode : ∀ p, parseModes command modes threeSends = .ok p → p.mode = "pub" := by
    intro p h
    rw [h] at hparse
    exact Option.some.inj hparse
  have hending : (run scripted threeSends choosy).ending = .exit 0 := by decide +kernel
  obtain ⟨r, y, -, -, hcounts, -, hread⟩ :=
    (publisher_reports scripted choosy hhelp hmode).1 hending
  have hsent : r.sent = 2 := hcounts.sent.trans (by decide +kernel)
  refine ⟨hhelp, hmode, hending, by decide +kernel, y, ?_⟩
  rw [← hsent]
  refine hread "sent=7\n" "bye\n" ?_ (List.forall_mem_singleton.mpr ?_)
  · exact fun c hc => Option.some.inj hc ▸ rfl
  · exact (readLine_eq_nothing_iff (τ := Double)).mp rfl

end ClientProgram

end BrokerLoad
