import BrokerLoad.Proofs.Fleet.Bench
import BrokerLoad.Proofs.Fleet.Pending
import BrokerLoad.Proofs.Fleet.Replay
import BrokerLoad.Proofs.Fleet.Return
import Mathlib.Algebra.Ring.Int.Defs

/-!
# What a summary accounts for

A run that returns gives a summary in which no client is lost and none is counted twice. Its records
are those of the clients that were asked for, in order, and each tells what became of its client, as
the machine behind the trail of the run knows it.

## Main definitions

* `Fleet.roster`: the clients of a run.
* `Fleet.Accounted`: a summary agrees with the trail of its run.

## Main statements

* `Fleet.phases_chronicle`: the phases keep the chronicle.
* `Fleet.Chronicle.counts`, `Fleet.Chronicle.messages`: what the summary of a chronicle adds up to.
* `Fleet.returned_run_accounts`: every summary of a fresh run agrees with its trail.
-/

namespace BrokerLoad

variable {τ σ π : Type} [Seconds τ]

namespace Fleet

/-! ## §1 The phases -/

/-- The clients of a role, in order. -/
def ranks (role : Role) (count : Nat) : List (Role × Int) :=
  (List.range count).map fun i => (role, (i : Int))

/-- The clients of a run in the order in which they are started. -/
def roster (y : Yard τ σ π) : List (Role × Int) :=
  ranks .subscriber y.plan.subscribers ++ ranks .publisher y.plan.publishers

variable {y : Yard τ σ π} {s : σ} {w u : World τ σ π} {roll : List (Role × Int)}

omit [Seconds τ] in
theorem ranks_succ (role : Role) (count : Nat) :
    ranks role (count + 1) = ranks role count ++ [(role, (count : Int))] := by
  simp [ranks, List.range_succ]

theorem spawnFrom_chronicle (y : Yard τ σ π) (s : σ) (before : List (Role × Int)) (role : Role)
    (count : Nat) :
    (spawnFrom y role 0 count).Meets (Chronicle y.host s before)
      (fun _ => Chronicle y.host s (before ++ ranks role count))
      (Action.Faulty fun _ _ => True) := by
  -- the invariant of the loop: the clients so far are on the roster
  refine (spawnFrom_meets y role 0 count
    (I := fun k => Chronicle y.host s (before ++ ranks role k)) (E := fun _ _ => True) ?_ ?_).mono
      ?_ ?_ fun _ _ => id
  · intro k v u _ _ hv hspawned
    rw [ranks_succ, ← List.append_assoc]
    exact hv.spawned hspawned
  · exact fun _ _ _ _ _ _ _ _ => trivial
  · intro w hw
    simpa [ranks] using hw
  · intro _ u hu
    rwa [Nat.zero_add] at hu

theorem warmUp_chronicle (y : Yard τ σ π) (s : σ) :
    (warmUp y).Meets (Chronicle y.host s roll) (fun _ => Chronicle y.host s roll)
      (Action.Faulty fun _ _ => True) := by
  apply Action.Meets.of_eq
  intro w hw
  refine (warmUp_meets y w).mono (fun _ => id) ?_ (Action.Faulty.mono fun _ _ _ => trivial)
  intro _ u hyp
  obtain ⟨time, env, record, _, hsleep, rfl⟩ := hyp
  exact (hw.logged record).answered (by trivial) (fun _ => rfl) hsleep

theorem joinPublishers_chronicle (y : Yard τ σ π) (s : σ) :
    (joinPublishers y).Meets (Chronicle y.host s roll) (fun _ => Chronicle y.host s roll)
      (Action.Faulty fun _ _ => True) := by
  refine (meets_of_heard fun start => joinPublishers_meets
    (R := fun _ => Chronicle y.host s roll) ?_ ?_).mono (fun _ => id) ?_ fun _ _ => id
  · exact fun w _ _ env hw _ hnow => hw.answered (by trivial) (fun _ => rfl) hnow
  · exact fun _ i w u hw hrole hu => hw.joined hrole hu
  · intro _ u hu
    obtain ⟨_, hu⟩ := hu
    exact hu

theorem askAll_chronicle (y : Yard τ σ π) (s : σ) (positions : List Nat) :
    (askAll y positions).Meets
      (fun w => Chronicle y.host s roll w ∧ Lists .subscriber positions w)
      (fun _ u => Chronicle y.host s roll u ∧ Lists .subscriber positions u)
      (Action.Faulty fun _ _ => True) :=
  meets_of_heard fun _ => askAll_meets (fun _ _ _ _ hw _ hu => hw.requested hu) positions

theorem awaitAll_chronicle (y : Yard τ σ π) (s : σ) (positions : List Nat) :
    (awaitAll y positions).Meets
      (fun w => Chronicle y.host s roll w ∧ Lists .subscriber positions w)
      (fun _ => Chronicle y.host s roll) (Action.Faulty fun _ _ => True) := by
  refine (meets_of_heard fun start => awaitAll_meets
    (R := fun _ => Chronicle y.host s roll) ?_ ?_ positions).mono (fun _ => id) ?_ fun _ _ => id
  · exact fun w _ _ env hw _ hnow => hw.answered (by trivial) (fun _ => rfl) hnow
  · exact fun _ i w u hw hrole hu => hw.stopped hrole hu
  · intro _ u hu
    obtain ⟨_, hu⟩ := hu
    exact hu

/-- The phases keep the chronicle, and put all clients on the roll. -/
theorem phases_chronicle (y : Yard τ σ π) (s : σ) :
    (phases y).Meets (Chronicle y.host s []) (fun _ => Chronicle y.host s (roster y))
      (Action.Faulty fun _ _ => True) := by
  -- which clients are on the roll before each phase
  have hphases := phases_meets (y := y) (E := fun _ _ => True)
    (I := fun k => Chronicle y.host s
      (if k = 0 then [] else if k ≤ 2 then ranks .subscriber y.plan.subscribers else roster y))
    ?_ ?_ ?_ ?_ ?_ ?_ ?_
  · exact hphases
  · exact fun k w record hw => hw.logged record
  · exact spawnFrom_chronicle y s [] .subscriber y.plan.subscribers
  · exact warmUp_chronicle y s
  · exact spawnFrom_chronicle y s (ranks .subscriber y.plan.subscribers) .publisher
      y.plan.publishers
  · exact joinPublishers_chronicle y s
  · exact askAll_chronicle y s
  · exact awaitAll_chronicle y s

/-! ## §2 Summaries -/

/-- A summary agrees with the trail of its run, whose phases began in the state `s` of the machine.
Its records are those of the clients that were asked for, in order. There was one launch for each,
and a record has no process exactly when its launch raised. A client has succeeded exactly when it
was started and exited as it should without being killed, every client has either succeeded or
failed, and only the counts that were read from the outputs of publishers are summed up. -/
structure Accounted (y : Yard τ σ π) (s : σ) (trail : List (Deed τ π)) (sum : Summary τ π) : Prop where
  roster : sum.records.map (fun r => (r.role, r.index)) = roster y
  launches : sum.records.map (·.process) = (y.host.launchAnswers s trail).map Except.toOption
  unlaunched : ∀ (i : Nat) (r : Record τ π), sum.records[i]? = some r →
    (r.process = none ↔ ∃ f, (y.host.launchAnswers s trail)[i]? = some (.error f))
  publisher : ∀ (i : Nat) (r : Record τ π), sum.records[i]? = some r → r.role = .publisher →
    (r.status = .success ↔ ∃ e, y.host.exitOf? s i trail = some e ∧
      r.process = some e.process ∧ e.killed = false ∧ e.code = some 0)
  subscriber : ∀ (i : Nat) (r : Record τ π), sum.records[i]? = some r → r.role = .subscriber →
    (r.status = .success ↔ ∃ e, y.host.exitOf? s i trail = some e ∧
      r.process = some e.process ∧ e.killed = false ∧ (e.code = some 0 ∨ e.code = some (-15)))
  counts : ∀ role, sum.count role .success + sum.count role .failure = clients y role
  messages : sum.messagesSent = ((List.range' y.plan.subscribers y.plan.publishers).map fun i =>
    ((y.host.exitOf? s i trail).bind fun e => (e.finding τ).sent?).getD 0).sum
  exitCode : sum.exitCode = 1 ↔
    0 < y.plan.publishers ∧ ∀ r ∈ sum.records, r.role = .publisher → r.status ≠ .success

omit [Seconds τ] in
theorem messagesSent_eq_sum (sum : Summary τ π) :
    sum.messagesSent =
      ((sum.records.filter (·.role = .publisher)).map fun r => r.sent.getD 0).sum := by
  rw [Summary.messagesSent, List.sum_eq_foldr, List.foldr_map]

omit [Seconds τ] in
/-- Of settled records, each one counts as a success or as a failure. -/
theorem countP_settled (role : Role) {records : List (Record τ π)}
    (hsettled : ∀ r ∈ records, r.settled = true) :
    (records.countP fun r => r.role = role ∧ r.status = .success) +
      (records.countP fun r => r.role = role ∧ r.status = .failure) =
        records.countP fun r => r.role = role := by
  induction records with
  | nil => rfl
  | cons r rest ih =>
    obtain ⟨hr, hrest⟩ := List.forall_mem_cons.1 hsettled
    rw [List.countP_cons, List.countP_cons, List.countP_cons, ← ih hrest]
    -- a settled record has exactly one of the two outcomes
    cases hstatus : r.status with
    | pending => simp [Record.settled, hstatus] at hr
    | success =>
      simp
      omega
    | failure =>
      simp
      omega

theorem roster_split {records : List (Record τ π)}
    (h : records.map (fun r => (r.role, r.index)) = roster y) :
    ∃ subscribers publishers, records = subscribers ++ publishers ∧
      subscribers.length = y.plan.subscribers ∧ publishers.length = y.plan.publishers ∧
      (∀ r ∈ subscribers, r.role = .subscriber) ∧ ∀ r ∈ publishers, r.role = .publisher := by
  obtain ⟨subscribers, publishers, hrecords, hsubscribers, hpublishers⟩ :=
    List.map_eq_append_iff.1 h
  have hrole : ∀ {part : List (Record τ π)} {role : Role} {count : Nat},
      part.map (fun r => (r.role, r.index)) = ranks role count →
      part.length = count ∧ ∀ r ∈ part, r.role = role := by
    intro part role count hpart
    constructor
    · simpa [ranks] using congrArg List.length hpart
    · intro r hr
      have hmem : (r.role, r.index) ∈ ranks role count := hpart ▸ List.mem_map_of_mem hr
      obtain ⟨i, _, heq⟩ := List.mem_map.1 hmem
      exact (congrArg Prod.fst heq).symm
  exact ⟨subscribers, publishers, hrecords, (hrole hsubscribers).1, (hrole hpublishers).1,
    (hrole hsubscribers).2, (hrole hpublishers).2⟩

theorem Chronicle.unlaunched (hw : Chronicle y.host s roll w) {i : Nat} {r : Record τ π}
    (hr : w.record? i = some r) :
    r.process = none ↔ ∃ f, (y.host.launchAnswers s w.trail)[i]? = some (.error f) := by
  -- the launch of the record has the same position
  have hlaunch : ((y.host.launchAnswers s w.trail)[i]?).map Except.toOption = some r.process := by
    rw [← List.getElem?_map, ← hw.launches, List.getElem?_map]
    exact congrArg (Option.map (·.process)) hr
  obtain ⟨answer, hanswer, hprocess⟩ := Option.map_eq_some_iff.1 hlaunch
  rw [hanswer, ← hprocess]
  cases answer with
  | ok p => simp [Except.toOption]
  | error f => simp [Except.toOption]

/-- Whether a client succeeded, from how its process exited. -/
theorem Fits.success_iff {found : Option (Exit π)} {r : Record τ π} (hfits : Fits found r)
    {good : Exit π → Prop} (hgood : ∀ e : Exit π, e.succeeds r.role = true ↔ good e) :
    r.status = .success ↔ ∃ e, found = some e ∧ r.process = some e.process ∧ good e := by
  rw [hfits.success]
  constructor
  · intro hyp
    obtain ⟨e, rfl, he⟩ := hyp
    exact ⟨e, rfl, hfits.process, (hgood e).1 he⟩
  · intro hyp
    obtain ⟨e, hfound, _, he⟩ := hyp
    exact ⟨e, hfound, (hgood e).2 he⟩

theorem Chronicle.fits (hw : Chronicle y.host s roll w) (hsettled : ∀ role, w.Settled role) {i : Nat}
    {r : Record τ π} (hr : w.record? i = some r) : Fits (y.host.exitOf? s i w.trail) r :=
  hw.settled i r hr (hsettled r.role i r hr rfl)

/-- Once all records are settled, the outcomes of a role add up to its clients. -/
theorem Chronicle.counts (hw : Chronicle y.host s (Fleet.roster y) w)
    (hsettled : ∀ role, w.Settled role) (role : Role) :
    (summaryOf y w).count role .success + (summaryOf y w).count role .failure =
      clients y role := by
  obtain ⟨subscribers, publishers, hrecords, hlength, hlength', hsubscribers, hpublishers⟩ :=
    roster_split hw.roster
  have hall : ∀ r ∈ w.state.records, r.settled = true := by
    intro r hr
    obtain ⟨i, hi⟩ := List.mem_iff_getElem?.1 hr
    exact hsettled r.role i r hi rfl
  refine (countP_settled role hall).trans ?_
  rw [hrecords, List.countP_append]
  cases role with
  | publisher =>
    rw [List.countP_eq_zero.2 fun r hr => by simp [hsubscribers r hr],
      List.countP_eq_length.2 fun r hr => by simp [hpublishers r hr], hlength', Nat.zero_add]
    rfl
  | subscriber =>
    rw [List.countP_eq_length.2 fun r hr => by simp [hsubscribers r hr],
      List.countP_eq_zero.2 fun r hr => by simp [hpublishers r hr], hlength, Nat.add_zero]
    rfl

/-- The messages of a run are those that were read from the outputs of its publishers, which stand
behind the subscribers. -/
theorem Chronicle.messages (hw : Chronicle y.host s (Fleet.roster y) w)
    (hsettled : ∀ role, w.Settled role) :
    (summaryOf y w).messagesSent =
      ((List.range' y.plan.subscribers y.plan.publishers).map fun i =>
        ((y.host.exitOf? s i w.trail).bind fun e => (e.finding τ).sent?).getD 0).sum := by
  obtain ⟨subscribers, publishers, hrecords, hlength, hlength', hsubscribers, hpublishers⟩ :=
    roster_split hw.roster
  have hfilter : w.state.records.filter (·.role = .publisher) = publishers := by
    rw [hrecords, List.filter_append, List.filter_eq_nil_iff.2, List.filter_eq_self.2]
    · rfl
    · exact fun r hr => by simpa using hpublishers r hr
    · exact fun r hr => by simp [hsubscribers r hr]
  have hcounts : publishers.map (fun r => r.sent.getD 0) =
      (List.range' y.plan.subscribers y.plan.publishers).map fun i =>
        ((y.host.exitOf? s i w.trail).bind fun e => (e.finding τ).sent?).getD 0 := by
    apply List.ext_getElem
    · simp [hlength']
    · intro j hj _
      have hlt : j < publishers.length := by simpa using hj
      have hr : w.record? (y.plan.subscribers + j) = some publishers[j] := by
        rw [World.record?, hrecords, List.getElem?_append_right (by omega), hlength,
          Nat.add_sub_cancel_left]
        exact List.getElem?_eq_getElem hlt
      simp [(hw.fits hsettled hr).sent]
  rw [messagesSent_eq_sum]
  show ((w.state.records.filter (·.role = .publisher)).map _).sum = _
  rw [hfilter, hcounts]

/-- A run whose build went well fails if publishers were asked for and none succeeded. -/
theorem exitCode_eq_one_iff (y : Yard τ σ π) (w : World τ σ π) :
    (summaryOf y w).exitCode = 1 ↔ 0 < y.plan.publishers ∧
      ∀ r ∈ (summaryOf y w).records, r.role = .publisher → r.status ≠ .success := by
  have hnone : (summaryOf y w).count .publisher .success = 0 ↔
      ∀ r ∈ (summaryOf y w).records, r.role = .publisher → r.status ≠ .success := by
    simp [Summary.count, List.countP_eq_zero]
  show (if (decide (0 < (y.plan.publishers : Int)) &&
    (summaryOf y w).count .publisher .success == 0) = true then (1 : Int) else 0) = 1 ↔ _
  rw [← hnone]
  simp

/-- The summary of a world in which all records of the run are settled. -/
theorem Chronicle.accounted (hw : Chronicle y.host s (Fleet.roster y) w)
    (hsettled : ∀ role, w.Settled role) : Accounted y s w.trail (summaryOf y w) where
  roster := hw.roster
  launches := hw.launches
  unlaunched := fun i r hr => hw.unlaunched hr
  publisher := by
    intro i r hr hrole
    apply (hw.fits hsettled hr).success_iff
    intro e
    simp [Exit.succeeds, hrole]
  subscriber := by
    intro i r hr hrole
    apply (hw.fits hsettled hr).success_iff
    intro e
    simp [Exit.succeeds, hrole, stoppedCode]
  counts := hw.counts hsettled
  messages := hw.messages hsettled
  exitCode := exitCode_eq_one_iff y w

variable {fleet : Fleet τ σ π}

/-- The chronicle begins when it is sure that there is a client. -/
theorem chronicle_atBuild (hfresh : fleet.records = []) :
    Chronicle y.host (atBuild y fleet).2.state.env [] (atBuild y fleet).2 := by
  obtain ⟨hrecords, hbuilds⟩ := atBuild_records y fleet
  have hnone : (atBuild y fleet).2.state.records = [] := hrecords.trans hfresh
  have hrecord : ∀ i r, (atBuild y fleet).2.record? i ≠ some r := by
    intro i r
    rw [World.record?, hnone]
    intro h
    cases h
  -- before the deeds of the build there is nothing to tell
  have hstart : Chronicle y.host (atBuild y fleet).2.state.env []
      ⟨(atBuild y fleet).2.state, []⟩ := by
    refine ⟨rfl, ?_, ?_, ?_, ?_⟩
    · rw [hnone]
      rfl
    · rw [hnone]
      rfl
    · exact fun i r hr => absurd hr (hrecord i r)
    · exact fun i r hr => absurd hr (hrecord i r)
  have hpassing : ∀ d ∈ (atBuild y fleet).2.trail,
      d.Passing ∧ ∀ env, (y.host.perform d env).2 = env := by
    intro d hd
    have hd := hbuilds d hd
    cases d with
    | log _ | compile _ | command _ => exact ⟨trivial, fun _ => rfl⟩
    | _ => exact absurd hd id
  have hextended := hstart.extended hpassing
  rwa [List.append_nil] at hextended

/-- No client of a run that returns is lost or counted twice. -/
theorem returned_run_accounts (hfresh : fleet.records = []) {sum : Summary τ π}
    (hreturn : (atEnd y fleet).1 = .ok sum) :
    Accounted y (atBuild y fleet).2.state.env (atEnd y fleet).2.trail sum := by
  obtain ⟨_, hcut⟩ := uncut_of_returned hreturn
  have hchronicle : Chronicle y.host (atBuild y fleet).2.state.env (roster y) (atCut y fleet).2 :=
    (phases_chronicle y _ _ (chronicle_atBuild hfresh)).of_ok hcut
  have hsettled := (atCut_path y.host.respects_blank fleet).2.2 hcut
  -- summing up only adds to the log
  obtain ⟨rfl, d, hd, hworld⟩ := atEnd_of_returned hreturn
  rw [hworld]
  exact (hchronicle.noted hd).accounted hsettled

/-- A run with one client of each role, whose publisher sends five messages. -/
theorem counted_run_accounts :
    ∃ sum, (atEnd Bench.counted Bench.fresh).1 = .ok sum ∧
      Accounted Bench.counted (atBuild Bench.counted Bench.fresh).2.state.env
        (atEnd Bench.counted Bench.fresh).2.trail sum ∧
      sum.messagesSent = 5 ∧ sum.exitCode = 0 := by
  have hnumbers : (atEnd Bench.counted Bench.fresh).1.toOption.map
      (fun sum => (sum.messagesSent, sum.exitCode)) = some (5, 0) := by decide +kernel
  cases hreturn : (atEnd Bench.counted Bench.fresh).1 with
  | error stop =>
    rw [hreturn] at hnumbers
    cases hnumbers
  | ok sum =>
    rw [hreturn] at hnumbers
    have hpair := Option.some.inj hnumbers
    exact ⟨sum, rfl, returned_run_accounts rfl hreturn, congrArg Prod.fst hpair,
      congrArg Prod.snd hpair⟩

end Fleet

end BrokerLoad
