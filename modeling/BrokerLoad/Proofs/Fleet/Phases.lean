import BrokerLoad.Proofs.Fleet.Ensure
import BrokerLoad.Proofs.Fleet.Parts
import BrokerLoad.Proofs.Fleet.Spawn

/-!
# The phases of a run

Each phase of a run keeps to its own deeds, and when it ends with a value it has settled the records
that it was there for. A run that is built goes through the phases until one of them fails, kills
what is left over, and passes the failure on.

## Main definitions

* `Fleet.World.Mans`: the processes of a role.
* `Fleet.World.Settled`: all records of a role are settled.
* `Fleet.atBuild`, `Fleet.atCut`, `Fleet.atCleanup`, `Fleet.atEnd`: the points of a run.

## Main statements

* `Fleet.joinPublishers_goes`, `Fleet.askAll_goes`, `Fleet.awaitAll_goes`, `Fleet.killUnsettled_goes`.
* `Fleet.phases_meets`: what the phases do, from what each of them does.
* `Fleet.atEnd_of_built`: a whole run from its phases and its cleanup.
-/

namespace BrokerLoad

variable {τ σ π : Type} [Seconds τ]

/-- The deeds of warming up. -/
def Deed.Warms (y : Yard τ σ π) : Deed τ π → Prop
  | .sleep time => y.patience.warmup = some time
  | .log _ | .misprint _ => True
  | _ => False

namespace Fleet

/-- The processes that clients of a role have. -/
def World.Mans (w : World τ σ π) (role : Role) (p : π) : Prop :=
  ∃ i r, w.record? i = some r ∧ r.role = role ∧ r.process = some p

/-- All records of a role are settled. -/
def World.Settled (w : World τ σ π) (role : Role) : Prop :=
  ∀ i r, w.record? i = some r → r.role = role → r.settled = true

variable {y : Yard τ σ π} {F : Fates σ π} {ok : Deed τ π → Prop} {w : World τ σ π} {role : Role}
  {positions : List Nat}

/-! ## §1 Records of a role -/

theorem lasting_lists (hno : ∀ role index, ¬ ok (.enlist role index)) (role : Role)
    (positions : List Nat) : Lasting y F ok (Lists role positions) := by
  intro u v hpath hu i
  rw [hu i]
  -- records keep their roles, and none was opened
  constructor
  · intro hyp
    obtain ⟨r, hr, hrole⟩ := hyp
    obtain ⟨s, hs, hkeeps, _⟩ := hpath.keeps hr
    exact ⟨s, hs, hkeeps.role.trans hrole⟩
  · intro hyp
    obtain ⟨s, hs, hrole⟩ := hyp
    obtain ⟨r, hr, hkeeps⟩ := hpath.back hno hs
    exact ⟨r, hr, hkeeps.role.symm.trans hrole⟩

omit [Seconds τ] in
theorem Lists.settled (h : Lists role positions w) (hdone : ∀ i ∈ positions, Done i w) :
    w.Settled role := by
  intro i r hr hrole
  -- the position of the record is on the list
  obtain ⟨s, hs, hsettled⟩ := hdone i ((h i).2 ⟨r, hr, hrole⟩)
  obtain rfl : r = s := Option.some.inj (hr.symm.trans hs)
  exact hsettled

omit [Seconds τ] in
theorem Lists.owned {u : World τ σ π} (h : Lists role positions u)
    (hrecords : u.state.records = w.state.records) {i : Nat} (hi : i ∈ positions) :
    Owned (w.Mans role) i u := by
  obtain ⟨r, hr, hrole⟩ := (h i).1 hi
  refine ⟨r, hr, fun _ p hp => ⟨i, r, ?_, hrole, hp⟩⟩
  rw [← World.record?_congr hrecords]
  exact hr

theorem lasting_settled (hno : ∀ role index, ¬ ok (.enlist role index)) (role : Role) :
    Lasting y F ok fun w => w.Settled role := by
  intro u v hpath hu i s hs hrole
  obtain ⟨r, hr, hkeeps⟩ := hpath.back hno hs
  have hsettled : r.settled = true := hu i r hr (hkeeps.role.symm.trans hrole)
  rw [hkeeps.settled hsettled]
  exact hsettled

/-! ## §2 The phases -/

/-- Warming up is one log record and one sleep. Without a time there is neither. -/
theorem warmUp_meets (y : Yard τ σ π) (w : World τ σ π) :
    (warmUp y).Meets (· = w)
      (fun _ u => ∃ time env record, y.patience.warmup = some time ∧
        y.host.sleep time w.state.env = (.ok (), env) ∧
        u = (w.noted (.log record)).after (.sleep time) env)
      (Action.Faulty fun f u =>
        (y.patience.warmup = none ∧ u = w.noted (.misprint (.emptyValue .display))) ∨
        ∃ time env record, y.patience.warmup = some time ∧
          y.host.sleep time w.state.env = (.error f, env) ∧
          u = (w.noted (.log record)).after (.sleep time) env) := by
  intro v heq
  subst heq
  simp only [warmUp]
  cases hwarmup : y.patience.warmup with
  -- without a time there is nothing to log, and none to sleep for
  | none =>
    simp only [needed, Except.map, logAttempt, Action.ofExcept, Action.runFrom_bind, act_run]
    cases y.host.misprint (.emptyValue .display) with
    | ok _ => exact .inl ⟨trivial, rfl⟩
    | error g => exact .inl ⟨trivial, rfl⟩
  | some time =>
    cases hanswer : y.host.sleep time v.state.env with
    | mk answer env =>
      simp only [needed, Except.map, logAttempt, Action.ofExcept, Action.runFrom_bind,
        Action.runFrom_pure, log_run, act_run, World.noted_state, hanswer]
      cases answer with
      | ok _ => exact ⟨time, env, _, rfl, hanswer, rfl⟩
      | error f => exact .inr ⟨time, env, _, rfl, hanswer, rfl⟩

theorem warmUp_goes (y : Yard τ σ π) (F : Fates σ π) :
    Goes y F (Deed.Warms y) (fun _ => True) (warmUp y) fun _ _ => True := by
  have hlogs : ∀ d : Deed τ π, d.Logs → d.Warms y := by
    intro d hd
    cases d with
    | log _ | misprint _ => trivial
    | _ => exact absurd hd id
  unfold warmUp
  refine Goes.bind (Goes.logAttempt hlogs fun _ _ => id) fun _ => ?_
  refine Goes.bind (Goes.needed fun h hcomplete => hcomplete.1 h) fun time => ?_
  refine Goes.assuming (fun _ hw => hw.2) fun hwarmup => ?_
  refine Goes.pre (P := fun _ => True) ?_ fun _ _ => trivial
  exact Goes.act (fun _ => rfl) hwarmup (fun _ _ => trivial) (fun _ => rfl) fun _ _ => id

theorem settleRole_goes {own : π → Prop} {P : World τ σ π → Prop} {f : Nat → Act τ σ π Unit}
    (hlaunch : ∀ argv capture, ¬ ok (.launch argv capture))
    (hnew : ∀ role index, ¬ ok (.enlist role index))
    (hf : ∀ i, Goes y F ok (Owned own i) (f i) fun _ => Done i)
    (hP : ∀ u, P u → Lists role positions u ∧ ∀ i ∈ positions, Owned own i u) :
    Goes y F ok P (forEach f positions) fun _ u => u.Settled role := by
  -- the list of positions stays right while the loop goes on
  have hloop := (Goes.forEach positions (lasting_owned hlaunch) lasting_done hf).frame
    (lasting_lists hnew role positions)
  apply hloop.conseq
  · exact fun u hu => ⟨(hP u hu).2, (hP u hu).1⟩
  · exact fun _ u hu => hu.2.settled hu.1

/-- Waiting for the publishers settles them. -/
theorem joinPublishers_goes (hF : y.host.Respects F) (w : World τ σ π) :
    Goes y F (Deed.Joins (w.Mans .publisher)) (· = w) (joinPublishers y)
      fun _ u => u.Settled .publisher := by
  have hsteady : Steady y fun u : World τ σ π => u.state.records = w.state.records :=
    fun _ _ => id
  unfold joinPublishers
  refine Goes.bind (Goes.needed fun h hcomplete => hcomplete.2.1 h) fun grace => ?_
  refine Goes.bind ((Goes.now trivial hsteady).pre ?_) fun start => ?_
  · intro u hu
    rw [hu.1]
  apply Goes.bind Goes.positionsOf
  intro positions
  -- every publisher on the list has one of the processes that publishers had at the start
  apply settleRole_goes (fun _ _ => id) (fun _ _ => id) (joinOne_goes hF _ _)
  exact fun u hu => ⟨hu.2, fun i hi => hu.2.owned hu.1 hi⟩

/-- Asking subscribers to stop settles none of them. -/
theorem askAll_goes (hF : y.host.Respects F) (w : World τ σ π)
    (hlists : Lists .subscriber positions w) :
    Goes y F (Deed.Asks (w.Mans .subscriber)) (· = w) (askAll y positions)
      fun _ u => Lists .subscriber positions u := by
  -- a request does to a record nothing that another one could notice
  have hone : ∀ i, Goes y F (Deed.Asks (w.Mans .subscriber)) (Owned (w.Mans .subscriber) i)
      (discard (terminate y i)) fun _ => Owned (w.Mans .subscriber) i :=
    fun i => Goes.discard (terminate_goes hF i)
  have hloop := (Goes.forEach positions (lasting_owned fun _ _ => id)
    (lasting_owned fun _ _ => id) hone).frame (lasting_lists (fun _ _ => id) .subscriber positions)
  refine hloop.conseq ?_ fun _ u hu => hu.2
  intro u heq
  subst heq
  exact ⟨fun i hi => hlists.owned rfl hi, hlists⟩

/-- Waiting for the subscribers settles them. -/
theorem awaitAll_goes (hF : y.host.Respects F) (w : World τ σ π)
    (hlists : Lists .subscriber positions w) :
    Goes y F (Deed.Waits (w.Mans .subscriber)) (· = w) (awaitAll y positions)
      fun _ u => u.Settled .subscriber := by
  have hsteady : Steady y fun u : World τ σ π =>
      Lists .subscriber positions u ∧ u.state.records = w.state.records := fun _ _ => id
  unfold awaitAll
  refine Goes.bind ((Goes.now trivial hsteady).pre ?_) fun start => ?_
  · intro u heq
    subst heq
    exact ⟨hlists, rfl⟩
  refine Goes.bind (Goes.needed fun h hcomplete => hcomplete.2.2 h) fun grace => ?_
  refine settleRole_goes (fun _ _ => id) (fun _ _ => id) (stopOne_goes hF _) ?_
  exact fun u hu => ⟨hu.1.1, fun i hi => hu.1.1.owned hu.1.2 hi⟩

/-- Killing what is left over leaves no open record with a process. -/
theorem killUnsettled_goes (hF : y.host.Respects F) :
    Goes y F (Deed.Waits fun _ => True) (fun _ => True) (killUnsettled y)
      fun _ u => ∀ i, Idle i u := by
  unfold killUnsettled
  apply Goes.bind Goes.current
  intro fleet
  -- no record is opened meanwhile, so the list of positions is complete
  have hlength : Lasting y F (Deed.Waits fun _ => True) fun u : World τ σ π =>
      u.state.records.length = fleet.records.length :=
    fun u v hpath hu => (hpath.length_eq fun _ _ => id).trans hu
  have hloop := (Goes.forEach (List.range fleet.records.length) (lasting_owned fun _ _ => id)
    (lasting_idle (fun _ _ => id) fun _ _ => id) (killOne_goes hF)).frame hlength
  apply hloop.conseq
  · intro u hu
    obtain ⟨_, rfl⟩ := hu
    refine ⟨fun i hi => ?_, rfl⟩
    exact ⟨_, List.getElem?_eq_getElem (List.mem_range.1 hi), fun _ _ _ => trivial⟩
  · intro _ u hu i p hbusy
    obtain ⟨hidle, hlen⟩ := hu
    -- an open record with a process would be at one of the positions
    have hi : i < fleet.records.length := by
      obtain ⟨r, hr, _⟩ := hbusy
      exact hlen ▸ World.lt_of_record? hr
    exact hidle i (List.mem_range.2 hi) p hbusy

/-! ## §3 All phases in a row -/

/-- What the phases do, from what each of them does. -/
theorem phases_meets {I : Nat → World τ σ π → Prop} {E : Fault → World τ σ π → Prop}
    (hlog : ∀ k w record, I k w → I k (w.noted (.log record)))
    (hsubscribers : (spawnFrom y .subscriber 0 y.plan.subscribers).Meets (I 0) (fun _ => I 1)
      (Action.Faulty E))
    (hwarmUp : (warmUp y).Meets (I 1) (fun _ => I 2) (Action.Faulty E))
    (hpublishers : (spawnFrom y .publisher 0 y.plan.publishers).Meets (I 2) (fun _ => I 3)
      (Action.Faulty E))
    (hjoin : (joinPublishers y).Meets (I 3) (fun _ => I 4) (Action.Faulty E))
    (hask : ∀ positions, (askAll y positions).Meets
      (fun u => I 4 u ∧ Lists .subscriber positions u)
      (fun _ u => I 5 u ∧ Lists .subscriber positions u) (Action.Faulty E))
    (hawait : ∀ positions, (awaitAll y positions).Meets
      (fun u => I 5 u ∧ Lists .subscriber positions u) (fun _ => I 6) (Action.Faulty E)) :
    (phases y).Meets (I 0) (fun _ => I 6) (Action.Faulty E) := by
  have hnote : ∀ k level text, (log (τ := τ) (σ := σ) (π := π) level text).Meets (I k)
      (fun _ => I k) (Action.Faulty E) := fun k level text w hw => hlog k w _ hw
  -- looking up the positions changes nothing
  have hpositions : (positionsOf (τ := τ) (σ := σ) (π := π) .subscriber).Meets (I 4)
      (fun positions u => I 4 u ∧ Lists .subscriber positions u) (Action.Faulty E) := by
    intro w hw
    obtain ⟨positions, hrun, hlists⟩ := positionsOf_run .subscriber w
    rw [hrun]
    exact ⟨hw, hlists⟩
  have hstop : (stopSubscribers y).Meets (I 4) (fun _ => I 6) (Action.Faulty E) :=
    hpositions.bind fun positions => (hask positions).bind fun _ => hawait positions
  unfold phases
  refine (hnote 0 _ _).bind fun _ => ?_
  refine hsubscribers.bind fun _ => ?_
  refine hwarmUp.bind fun _ => ?_
  refine (hnote 2 _ _).bind fun _ => ?_
  refine hpublishers.bind fun _ => ?_
  refine (hnote 3 _ _).bind fun _ => ?_
  refine hjoin.bind fun _ => ?_
  refine (hnote 4 _ _).bind fun _ => ?_
  exact hstop

/-- The phases follow a path. When none of them fails, all records are settled. -/
theorem phases_path (hF : y.host.Respects F) (w : World τ σ π) :
    (phases y).Meets (· = w)
      (fun _ u => Path y.host F (fun _ => True) w u ∧ ∀ role, u.Settled role)
      (Action.Faulty fun _ u => Path y.host F (fun _ => True) w u) := by
  have hgoes : ∀ {ok : Deed τ π → Prop} {v u : World τ σ π},
      Path y.host F (fun _ => True) w v → Path y.host F ok v u →
      Path y.host F (fun _ => True) w u :=
    fun hwv hvu => hwv.trans (hvu.mono fun _ _ => trivial)
  -- what is settled after each phase
  have hphases := phases_meets (y := y)
    (I := fun k u => Path y.host F (fun _ => True) w u ∧ (4 ≤ k → u.Settled .publisher) ∧
      (6 ≤ k → u.Settled .subscriber))
    (E := fun _ u => Path y.host F (fun _ => True) w u) ?_ ?_ ?_ ?_ ?_ ?_ ?_
  · refine hphases.mono ?_ ?_ fun _ _ => id
    · intro u heq
      subst heq
      exact ⟨.refl, by omega, by omega⟩
    · intro _ u hu
      obtain ⟨hpath, hpublishers, hsubscribers⟩ := hu
      refine ⟨hpath, fun role => ?_⟩
      cases role with
      | publisher => exact hpublishers (by omega)
      | subscriber => exact hsubscribers (by omega)
  -- a log record between two phases
  · exact fun k v record hv => ⟨hv.1.tail (.log trivial), hv.2⟩
  -- starting the subscribers
  · apply Goes.along (fun v _ => (spawnFrom_goes F y .subscriber _).pre fun _ _ => trivial)
    · exact fun v _ u hv hpath _ => ⟨hgoes hv.1 hpath, by omega, by omega⟩
    · exact fun v f u hv hpath => hgoes hv.1 hpath
  -- warming up
  · apply Goes.along (fun v _ => (warmUp_goes y F).pre fun _ _ => trivial)
    · exact fun v _ u hv hpath _ => ⟨hgoes hv.1 hpath, by omega, by omega⟩
    · exact fun v f u hv hpath => hgoes hv.1 hpath
  -- starting the publishers
  · apply Goes.along (fun v _ => (spawnFrom_goes F y .publisher _).pre fun _ _ => trivial)
    · exact fun v _ u hv hpath _ => ⟨hgoes hv.1 hpath, by omega, by omega⟩
    · exact fun v f u hv hpath => hgoes hv.1 hpath
  -- waiting for the publishers, which settles them
  · apply Goes.along (fun v _ => joinPublishers_goes hF v)
    · exact fun v _ u hv hpath hsettled => ⟨hgoes hv.1 hpath, fun _ => hsettled, by omega⟩
    · exact fun v f u hv hpath => hgoes hv.1 hpath
  · intro positions
    -- the requests to stop leave the publishers settled
    apply Goes.along (fun v hv => askAll_goes hF v hv.2)
    · intro v _ u hu hpath hlists
      obtain ⟨⟨hwv, hpublishers, _⟩, _⟩ := hu
      refine ⟨⟨hgoes hwv hpath, fun _ => ?_, by omega⟩, hlists⟩
      exact lasting_settled (fun _ _ => id) .publisher v u hpath (hpublishers (by omega))
    · exact fun v f u hv hpath => hgoes hv.1.1 hpath
  · intro positions
    -- waiting for the subscribers settles them too
    apply Goes.along (fun v hv => awaitAll_goes hF v hv.2)
    · intro v _ u hu hpath hsettled
      obtain ⟨⟨hwv, hpublishers, _⟩, _⟩ := hu
      refine ⟨hgoes hwv hpath, fun _ => ?_, fun _ => hsettled⟩
      exact lasting_settled (fun _ _ => id) .publisher v u hpath (hpublishers (by omega))
    · exact fun v f u hv hpath => hgoes hv.1.1 hpath

/-! ## §4 The whole run -/

/-- Making sure that there is a client: how it ended, and the world it left. -/
def atBuild (y : Yard τ σ π) (fleet : Fleet τ σ π) : Except Stop Unit × World τ σ π :=
  Action.runFrom (ensureBuilt y) { state := fleet }

/-- The phases: how they ended, and the world they left. -/
def atCut (y : Yard τ σ π) (fleet : Fleet τ σ π) : Except Stop Unit × World τ σ π :=
  Action.runFrom (phases y) (atBuild y fleet).2

/-- The cleanup: how it ended, and the world it left. -/
def atCleanup (y : Yard τ σ π) (fleet : Fleet τ σ π) : Except Stop Unit × World τ σ π :=
  Action.runFrom (killUnsettled y) (atCut y fleet).2

/-- The whole run: how it ended, and the world it left. -/
def atEnd (y : Yard τ σ π) (fleet : Fleet τ σ π) : Except Stop (Summary τ π) × World τ σ π :=
  Action.runFrom (run y) { state := fleet }

/-- The summary that a world gives. -/
def summaryOf (y : Yard τ σ π) (w : World τ σ π) : Summary τ π :=
  { publishers := y.plan.publishers, subscribers := y.plan.subscribers, records := w.state.records }

variable {fleet : Fleet τ σ π}

/-- Summing up logs once and gives the summary of the records, unless the log raises. -/
theorem finish_run (y : Yard τ σ π) (w : World τ σ π) :
    ∃ d, d.Logs ∧ (Action.runFrom (finish y) w = (.ok (summaryOf y w), w.noted d) ∨
      ∃ f s, (y.host.perform d s).1 = .error f ∧
        Action.runFrom (finish y) w = (.error (.fault f), w.noted d)) := by
  have hsummary : Action.runFrom (summary y) w = (.ok (summaryOf y w), w) := rfl
  simp only [finish, Action.runFrom_bind, hsummary]
  cases finishText y (summaryOf y w) with
  | ok text => exact ⟨.log ⟨.info, logger, text⟩, trivial, .inl rfl⟩
  -- the text cannot be put together
  | error cause =>
    refine ⟨.misprint cause, trivial, ?_⟩
    simp only [logAttempt, act_run]
    cases hanswer : y.host.misprint cause with
    | ok _ => exact .inl rfl
    | error f =>
      refine .inr ⟨f, w.state.env, ?_, rfl⟩
      simp only [Host.perform, bare, hanswer]
      rfl

/-- A run begins with making sure that there is its client. Its records stay as they are. -/
theorem atBuild_eq (y : Yard τ σ π) (fleet : Fleet τ σ π) :
    atBuild y fleet = ((ensured y fleet.env).1,
      ⟨{ fleet with env := (ensured y fleet.env).2.state }, (ensured y fleet.env).2.trail⟩) :=
  rfl

theorem atBuild_of_ensured (h : (ensured y fleet.env).1 = .ok ()) :
    (atBuild y fleet).1 = .ok () := by
  rw [atBuild_eq]
  exact h

/-- Making sure that there is a client leaves the records alone, and has building deeds only. -/
theorem atBuild_records (y : Yard τ σ π) (fleet : Fleet τ σ π) :
    (atBuild y fleet).2.state.records = fleet.records ∧ ∀ d ∈ (atBuild y fleet).2.trail, d.Builds := by
  obtain ⟨hrecords, new, hnew, hall⟩ := ensureBuilt_run y { state := fleet }
  rw [List.append_nil] at hnew
  exact ⟨hrecords, fun d hd => hall d (hnew ▸ hd)⟩

/-- The phases follow a path, whatever cuts them. They never run out of fuel, and when nothing cuts
them all records are settled. -/
theorem atCut_path (hF : y.host.Respects F) (fleet : Fleet τ σ π) :
    Path y.host F (fun _ => True) (atBuild y fleet).2 (atCut y fleet).2 ∧
      (atCut y fleet).1 ≠ .error .outOfFuel ∧
      ((atCut y fleet).1 = .ok () → ∀ role, (atCut y fleet).2.Settled role) := by
  have hphases := phases_path hF (atBuild y fleet).2 _ rfl
  cases hcut : (atCut y fleet).1 with
  | ok _ =>
    obtain ⟨hpath, hsettled⟩ := hphases.of_ok hcut
    exact ⟨hpath, by simp, fun _ => hsettled⟩
  | error stop =>
    have hstop := hphases.of_error hcut
    cases stop with
    | fault f => exact ⟨hstop, by simp, fun hok => by cases hok⟩
    -- no loop of the phases counts fuel
    | outOfFuel => exact absurd hstop id

/-- The cleanup keeps to its deeds, even if it is stopped. -/
theorem atCleanup_through (hF : y.host.Respects F) (fleet : Fleet τ σ π) :
    Path y.host F (Deed.OrRead (Deed.Waits fun _ => True)) (atCut y fleet).2
      (atCleanup y fleet).2 := by
  have hcleanup := killUnsettled_goes hF (atCut y fleet).2 trivial _ rfl
  cases hclosed : (atCleanup y fleet).1 with
  | ok _ =>
    obtain ⟨hpath, _⟩ := hcleanup.of_ok hclosed
    exact hpath.mono Deed.orRead
  | error stop =>
    have hstop := hcleanup.of_error hclosed
    cases stop with
    | outOfFuel => exact absurd hstop id
    | fault f =>
      obtain ⟨v, hpath, hfails⟩ := hstop
      exact hfails.through hpath

/-- A cleanup that is not stopped follows a path and leaves no open record with a process. -/
theorem atCleanup_path (hF : y.host.Respects F) (hclean : (atCleanup y fleet).1 = .ok ()) :
    Path y.host F (Deed.Waits fun _ => True) (atCut y fleet).2 (atCleanup y fleet).2 ∧
      ∀ i, Idle i (atCleanup y fleet).2 :=
  (killUnsettled_goes hF (atCut y fleet).2 trivial _ rfl).of_ok hclean

/-- A run whose client is not there ends at once. -/
theorem atEnd_of_unbuilt {stop : Stop} (hbuilt : (atBuild y fleet).1 = .error stop) :
    atEnd y fleet = (.error stop, (atBuild y fleet).2) := by
  have hbuild : Action.runFrom (ensureBuilt y) { state := fleet } =
      (.error stop, (atBuild y fleet).2) := Prod.ext hbuilt rfl
  simp only [atEnd, run, Action.runFrom_bind, hbuild]

/-- A run whose client is there goes through its phases, kills what is left over, and passes on what
cut it. -/
theorem atEnd_of_built (hbuilt : (atBuild y fleet).1 = .ok ()) :
    atEnd y fleet =
      match (atCleanup y fleet).1, (atCut y fleet).1 with
      | .error stop, _ | .ok (), .error stop => (.error stop, (atCleanup y fleet).2)
      | .ok (), .ok () => Action.runFrom (finish y) (atCleanup y fleet).2 := by
  have hbuild : Action.runFrom (ensureBuilt y) { state := fleet } =
      (.ok (), (atBuild y fleet).2) := Prod.ext hbuilt rfl
  have hclosing : Action.runFrom (Action.closing (phases y) (killUnsettled y)) (atBuild y fleet).2 =
      ((atCleanup y fleet).1.bind fun _ => (atCut y fleet).1, (atCleanup y fleet).2) :=
    Action.closing_run rfl (atCut_path y.host.respects_blank fleet).2.1
  -- a stop of the cleanup comes before that of the phases
  simp only [atEnd, run, Action.runFrom_bind, hbuild, hclosing]
  cases (atCleanup y fleet).1 with
  | error stop => rfl
  | ok _ => cases (atCut y fleet).1 <;> rfl

/-- A run that returns was built, and nothing cut it. -/
theorem uncut_of_returned {sum : Summary τ π} (hreturn : (atEnd y fleet).1 = .ok sum) :
    (atBuild y fleet).1 = .ok () ∧ (atCut y fleet).1 = .ok () := by
  cases hbuilt : (atBuild y fleet).1 with
  | error stop =>
    rw [atEnd_of_unbuilt hbuilt] at hreturn
    cases hreturn
  | ok _ =>
    rw [atEnd_of_built hbuilt] at hreturn
    cases hclean : (atCleanup y fleet).1 with
    | error stop =>
      rw [hclean] at hreturn
      cases hreturn
    | ok _ =>
      cases hcut : (atCut y fleet).1 with
      | error stop =>
        rw [hclean, hcut] at hreturn
        cases hreturn
      | ok _ => exact ⟨rfl, rfl⟩

/-- A run ends with what the cleanup left, but for what it logs. -/
theorem atEnd_world (hbuilt : (atBuild y fleet).1 = .ok ()) :
    (atEnd y fleet).2 = (atCleanup y fleet).2 ∨
      ∃ d, d.Logs ∧ (atEnd y fleet).2 = (atCleanup y fleet).2.noted d := by
  rw [atEnd_of_built hbuilt]
  cases (atCleanup y fleet).1 with
  | error stop => exact .inl rfl
  | ok _ =>
    cases (atCut y fleet).1 with
    | error stop => exact .inl rfl
    | ok _ =>
      -- nothing was cut: the run sums up and logs it
      obtain ⟨d, hd, hfinish | ⟨f, s, _, hfinish⟩⟩ := finish_run y (atCleanup y fleet).2
      · exact .inr ⟨d, hd, congrArg Prod.snd hfinish⟩
      · exact .inr ⟨d, hd, congrArg Prod.snd hfinish⟩

/-- A run whose cleanup is not stopped passes on what cut it. -/
theorem atEnd_passes (hbuilt : (atBuild y fleet).1 = .ok ())
    (hclean : (atCleanup y fleet).1 = .ok ()) {stop : Stop}
    (hcut : (atCut y fleet).1 = .error stop) : (atEnd y fleet).1 = .error stop := by
  rw [atEnd_of_built hbuilt, hclean, hcut]

end Fleet

end BrokerLoad
