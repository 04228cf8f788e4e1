import BrokerLoad.Proofs.Client.Pace
import BrokerLoad.Proofs.Client.Turns
import BrokerLoad.Proofs.Contract

/-!
# Publishing at the ideal pace

The publisher divides its waiting into short pumps and short sleeps. On surroundings in which these
take exactly as long as they were asked to, none of that shows: the sends are made at the times of
the ideal pace. What carries the proof through the turns is that the later of the present time and
the deadline is the time of the next send; no wait changes it, since none goes beyond the deadline.

## Main definitions

* `Surroundings.Ideal`: surroundings in which only the sends take time of their own.
* `Plan.pace`: the pace of a plan.
* `Publisher.Underway`: a publisher in its loop that has kept to the pace.
* `Publisher.turnsLeft`: how many turns it still takes at most.

## Main statements

* `Publisher.turn`: one turn keeps to the pace, and leaves fewer turns.
* `Publisher.loop_keeps_pace`: so the whole loop does.
* `Publisher.run_keeps_pace`: a run sends at the times of the pace that lie before its end.
-/

namespace BrokerLoad

variable {σ η : Type}

/-! ## §1 Ideal surroundings -/

/-- How a send ends that may be refused. -/
def sendOutcome : Option PublishError → Except Stop Unit
  | none => .ok ()
  | some e => .error (.fault (.publish e))

/-- Surroundings in which waiting takes exactly as long as it was asked to. The sends are counted by
`count`; each takes the time that `latency` says, and it is refused if `refusal` says so. -/
structure Surroundings.Ideal (w : Surroundings Rat σ η) (count : σ → Nat) (latency : Nat → Rat)
    (refusal : Nat → Option PublishError) : Prop where
  quiet : w.session.Quiet
  latency_nonneg : ∀ j, 0 ≤ latency j
  pump : ∀ t env, 0 ≤ t →
    (w.session.pump t env).1.outcome = .ok () ∧
      w.timer.now (w.session.pump t env).2 = w.timer.now env + t ∧
      count (w.session.pump t env).2 = count env
  sleep : ∀ t env, 0 ≤ t →
    (w.timer.sleep t env).1 = .ok () ∧
      w.timer.now (w.timer.sleep t env).2 = w.timer.now env + t ∧
      count (w.timer.sleep t env).2 = count env
  publish : ∀ topic payload qos env,
    (w.session.publish topic payload qos env).1.outcome = sendOutcome (refusal (count env)) ∧
      w.timer.now (w.session.publish topic payload qos env).2 =
        w.timer.now env + latency (count env) ∧
      count (w.session.publish topic payload qos env).2 = count env + 1
  disconnect : ∀ env, (w.session.disconnect env).1.outcome = .ok ()

/-- Surroundings in which the time is all there is to see: the state is the time and the number of
sends so far. -/
def Surroundings.exact (latency : Nat → Rat) (refusal : Nat → Option PublishError) :
    Surroundings Rat (Rat × Nat) Unit where
  session :=
    { connect := fun env => (⟨.ok (), []⟩, env)
      disconnect := fun env => (⟨.ok (), []⟩, env)
      subscribe := fun _ _ env => (⟨.ok (), []⟩, env)
      publish := fun _ _ _ env =>
        (⟨sendOutcome (refusal env.2), []⟩, env.1 + latency env.2, env.2 + 1)
      pump := fun t env => (⟨.ok (), []⟩, env.1 + t, env.2) }
  timer := { now := Prod.fst, sleep := fun t env => (.ok (), env.1 + t, env.2) }
  handler := { accept := fun _ _ => id }

/-- Every sequence of latencies and of refusals has ideal surroundings. -/
theorem Surroundings.exact_ideal {latency : Nat → Rat} (h : ∀ j, 0 ≤ latency j)
    (refusal : Nat → Option PublishError) :
    (Surroundings.exact latency refusal).Ideal Prod.snd latency refusal where
  quiet r s n hn := by
    have hnone : ((Surroundings.exact latency refusal).session.answer r s).1.notes = [] := by
      cases r <;> rfl
    rw [hnone] at hn
    cases hn
  latency_nonneg := h
  pump _ _ _ := ⟨rfl, rfl, rfl⟩
  sleep _ _ _ := ⟨rfl, rfl, rfl⟩
  publish _ _ _ _ := ⟨rfl, rfl, rfl⟩
  disconnect _ := rfl

/-- The pace of a plan, given its start and how long each send takes. -/
def Plan.pace (plan : Plan Rat) (start : Rat) {latency : Nat → Rat} (h : ∀ j, 0 ≤ latency j) :
    Pace :=
  ⟨start, plan.interval, latency, of_decide_eq_true plan.interval_pos, h⟩

namespace Publisher

/-- The request to publish that a plan makes at a given time. -/
def sendOf (plan : Plan Rat) (time : Rat) : Note Rat :=
  ⟨time, .request (.publish plan.settings.topic plan.payload plan.settings.qos) .active⟩

/-- The client is active, has made `j` sends that are noted in `calls`, and its clock shows `x`. -/
structure Stands (w : Surroundings Rat σ η) (count : σ → Nat) (j : Nat) (x : Rat)
    (calls : List (Note Rat)) (s : Traced (Note Rat) (Client σ η)) : Prop where
  phase : s.state.phase = .active
  count : count s.state.env = j
  clock : w.timer.now s.state.env = x
  calls : Client.publishes s = calls

variable {w : Surroundings Rat σ η} {count : σ → Nat} {pace : Pace}
  {refusal : Nat → Option PublishError} {plan : Plan Rat} {tuning : Tuning Rat}
  {j : Nat} {x : Rat} {calls : List (Note Rat)} {s : Traced (Note Rat) (Client σ η)}
  {p : Progress Rat}

/-! ## §2 The parts of a turn -/

/-- What a client does, judged by the environment that it leaves. -/
theorem Stands.of_does {t : Traced (Note Rat) (Client σ η)} {env : σ} {more : List (Note Rat)}
    {j' : Nat} {x' : Rat} (hs : Stands w count j x calls s) (h : Client.Does s env more t)
    (hcount : count env = j') (hclock : w.timer.now env = x') :
    Stands w count j' x' (calls ++ more.filter (·.happening.isPublish)) t where
  phase := h.phase.trans hs.phase
  count := by rw [h.env, hcount]
  clock := by rw [h.env, hclock]
  calls := by rw [h.publishes, hs.calls]

theorem Stands.pump (ideal : w.Ideal count pace.latency refusal) (hs : Stands w count j x calls s)
    {t : Rat} (ht : 0 ≤ t) :
    ∃ u, Action.runFrom (Client.request w (.pump t)) s = (.ok (), u) ∧
      Stands w count j (x + t) calls u := by
  obtain ⟨hok, hclock, hcount⟩ := ideal.pump t s.state.env ht
  obtain ⟨u, hrun, hu⟩ := Client.request_run ideal.quiet (.pump t) s
  refine ⟨u, hrun.trans (by rw [Session.answer, hok]), ?_⟩
  have h := hs.of_does hu (hcount.trans hs.count) (hclock.trans (by rw [hs.clock]))
  rwa [List.filter_cons_of_neg (by nofun), List.filter_nil, List.append_nil] at h

theorem Stands.sleep (ideal : w.Ideal count pace.latency refusal) (hs : Stands w count j x calls s)
    {t : Rat} (ht : 0 ≤ t) :
    ∃ u, Action.runFrom (Client.sleep w t) s = (.ok (), u) ∧
      Stands w count j (x + t) calls u := by
  obtain ⟨hok, hclock, hcount⟩ := ideal.sleep t s.state.env ht
  obtain ⟨u, hrun, hu⟩ := Client.sleep_run (w := w) t s
  refine ⟨u, hrun.trans (by rw [hok]; rfl), ?_⟩
  have h := hs.of_does hu (hcount.trans hs.count) (hclock.trans (by rw [hs.clock]))
  rwa [List.filter_cons_of_neg (by nofun), List.filter_nil, List.append_nil] at h

/-- A send is counted as sent or as refused. -/
def Progress.tallied (p : Progress Rat) : Option PublishError → Progress Rat
  | none => { p with sent := p.sent + 1 }
  | some _ => { p with errors := p.errors + 1 }

theorem Progress.afterSend_sendOutcome (p : Progress Rat) (refused : Option PublishError) :
    p.afterSend (sendOutcome refused) = .ok (p.tallied refused) := by
  cases refused <;> rfl

theorem Stands.send (ideal : w.Ideal count pace.latency refusal) (hs : Stands w count j x calls s)
    (plan : Plan Rat) (p : Progress Rat) :
    ∃ u, Action.runFrom (send w plan p) s = (.ok (p.tallied (refusal j)), u) ∧
      Stands w count (j + 1) (x + pace.latency j) (calls ++ [sendOf plan x]) u := by
  obtain ⟨hend, hclock, hcount⟩ :=
    ideal.publish plan.settings.topic plan.payload plan.settings.qos s.state.env
  obtain ⟨u, hrun, hu⟩ := send_run ideal.quiet plan p s
  refine ⟨u, ?_, ?_⟩
  · rw [hrun, Session.answer, hend, hs.count, p.afterSend_sendOutcome]
  · rw [hs.clock, hs.phase] at hu
    exact hs.of_does hu (hcount.trans (by rw [hs.count]))
      (hclock.trans (by rw [hs.clock, hs.count]))

theorem Stands.advance (hs : Stands w count j x calls s) (p : Progress Rat) (hx : pace.start ≤ x)
    (hp : 0 ≤ p.index) :
    ∃ u, Action.runFrom (advance w pace.schedule p) s =
        (.ok (p.atDeadline pace.schedule (pace.next p.index x).index), u) ∧
      Stands w count j x calls u := by
  obtain ⟨u, hrun, hu⟩ :=
    advance_run (w := w) (s := s) pace.schedule p (hx.trans_eq hs.clock.symm) hp
  rw [hs.clock] at hrun
  refine ⟨u, hrun, ?_⟩
  have h := hs.of_does hu hs.count hs.clock
  rwa [List.filter_nil, List.append_nil] at h

/-! ## §3 Turns -/

/-- The first `j` sends at the pace. -/
def sends (plan : Plan Rat) (pace : Pace) (j : Nat) : List (Note Rat) :=
  (List.range j).map fun i => sendOf plan (pace.time i)

theorem sends_succ (plan : Plan Rat) (pace : Pace) (j : Nat) :
    sends plan pace (j + 1) = sends plan pace j ++ [sendOf plan (pace.time j)] := by
  rw [sends, List.range_succ, List.map_append]
  rfl

/-- A publisher that is about to make its send `j`, its clock showing `x`: whatever time is left to
the deadline, it will send at the time of the pace. -/
structure Follows (pace : Pace) (refusal : Nat → Option PublishError) (j : Nat) (x : Rat)
    (p : Progress Rat) : Prop where
  index : p.index = (pace.slot j).index
  deadline : p.deadline = pace.deadline p.index
  time : max x p.deadline = pace.time j
  sent : p.sent = (List.range j).countP fun i => (refusal i).isNone
  errors : p.errors = (List.range j).countP fun i => (refusal i).isSome

theorem Follows.start_le (h : Follows pace refusal j x p) : pace.start ≤ p.deadline := by
  have hindex : (0 : Rat) ≤ p.index := by
    rw [h.index]
    exact_mod_cast (Int.natCast_nonneg j).trans (pace.index_ge j)
  rw [h.deadline, Pace.deadline]
  exact le_add_of_nonneg_right (mul_nonneg hindex pace.interval_pos.le)

/-- Waiting no further than to the deadline changes nothing. -/
theorem Follows.wait (h : Follows pace refusal j x p) {t : Rat} (ht : 0 ≤ t)
    (hdeadline : t ≤ max 0 (p.deadline - x)) : Follows pace refusal j (x + t) p := by
  have htime : max (x + t) p.deadline = max x p.deadline := by
    rcases le_total x p.deadline with hx | hx
    · rw [max_eq_right hx, max_eq_right]
      rw [max_eq_right (sub_nonneg.mpr hx)] at hdeadline
      linarith
    · rw [max_eq_left (sub_nonpos.mpr hx)] at hdeadline
      rw [le_antisymm hdeadline ht, add_zero]
  exact { h with time := htime.trans h.time }

/-- After a send at the time of the pace the next slot of the pace follows. -/
theorem Follows.send (h : Follows pace refusal j x p) (hdue : p.deadline ≤ x) :
    Follows pace refusal (j + 1) (x + pace.latency j)
      ((p.tallied (refusal j)).atDeadline pace.schedule
        (pace.next p.index (x + pace.latency j)).index) := by
  have htime : x = pace.time j := by
    rw [← h.time, max_eq_left hdue]
  have hslot : pace.next p.index (x + pace.latency j) = pace.slot (j + 1) := by
    rw [htime, h.index]
    rfl
  refine ⟨?_, rfl, ?_, ?_, ?_⟩
  · rw [hslot]
    rfl
  · rw [hslot, htime]
    rfl
  · have hsent := h.sent
    cases hrefusal : refusal j <;>
      simp [Progress.tallied, Progress.atDeadline, List.range_succ, List.countP_append, hrefusal,
        hsent]
  · have herrors := h.errors
    cases hrefusal : refusal j <;>
      simp [Progress.tallied, Progress.atDeadline, List.range_succ, List.countP_append, hrefusal,
        herrors]

/-- How many turns are left at most: two for each send to come, one for a deadline that lies ahead,
one for each quantum of the time left, and the last one. -/
def turnsLeft (stop quantum : Rat) (n j : Nat) (x deadline : Rat) : Nat :=
  2 * (n - j) + (if deadline ≤ x then 0 else 1) + ⌈(stop - x) / quantum⌉₊ + 1

variable {stop quantum : Rat} {n : Nat}

theorem turnsLeft_send (hquantum : 0 < quantum) (hj : j < n) {x' deadline deadline' : Rat}
    (hx : x ≤ x') :
    turnsLeft stop quantum n (j + 1) x' deadline' < turnsLeft stop quantum n j x deadline := by
  have hceil : ⌈(stop - x') / quantum⌉₊ ≤ ⌈(stop - x) / quantum⌉₊ := by gcongr
  unfold turnsLeft
  split <;> split <;> omega

theorem turnsLeft_sleep (hquantum : 0 < quantum) {x' deadline : Rat} (hx : x ≤ x')
    (hdeadline : x' < deadline) (hstop : x' < stop) :
    turnsLeft stop quantum n j (x' + min (deadline - x') quantum) deadline <
      turnsLeft stop quantum n j x deadline := by
  have hceil : ⌈(stop - x') / quantum⌉₊ ≤ ⌈(stop - x) / quantum⌉₊ := by gcongr
  unfold turnsLeft
  rw [if_neg (not_le.mpr (hx.trans_lt hdeadline))]
  rcases le_total (deadline - x') quantum with hnear | hfar
  · -- the deadline is reached
    have hless : ⌈(stop - deadline) / quantum⌉₊ ≤ ⌈(stop - x') / quantum⌉₊ := by gcongr
    rw [min_eq_left hnear, add_sub_cancel, if_pos le_rfl]
    omega
  · -- a whole quantum of the time left is over
    have hless : ⌈(stop - (x' + quantum)) / quantum⌉₊ < ⌈(stop - x') / quantum⌉₊ := by
      have hpos : 0 < (stop - x') / quantum := div_pos (sub_pos.mpr hstop) hquantum
      rw [show (stop - (x' + quantum)) / quantum = (stop - x') / quantum - 1 by
        field_simp; ring, Nat.ceil_sub_one]
      have := Nat.ceil_pos.mpr hpos
      omega
    rw [min_eq_right hfar]
    split <;> omega

/-- A publisher in its loop that has kept to the pace. -/
structure Underway (w : Surroundings Rat σ η) (count : σ → Nat) (pace : Pace)
    (refusal : Nat → Option PublishError) (plan : Plan Rat) (before : List (Note Rat)) (j : Nat)
    (x : Rat) (p : Progress Rat) (s : Traced (Note Rat) (Client σ η)) : Prop where
  stands : Stands w count j x (before ++ sends plan pace j) s
  follows : Follows pace refusal j x p

variable {before : List (Note Rat)}

theorem over_iff (plan : Plan Rat) (pace : Pace) (y : Rat) :
    plan.duration ≤ y - pace.schedule.start ↔ pace.start + plan.duration ≤ y :=
  le_sub_iff_add_le'

/-- A send whose deadline has come is made at the time of the pace. -/
theorem Underway.send (ideal : w.Ideal count pace.latency refusal)
    (h : Underway w count pace refusal plan before j x p s) (hdue : p.deadline ≤ x) (fuel : Nat) :
    ∃ q t, Action.runFrom (do
        let sent ← send w plan p
        let next ← advance w pace.schedule sent
        loop w plan tuning pace.schedule fuel next) s =
          Action.runFrom (loop w plan tuning pace.schedule fuel q) t ∧
      Underway w count pace refusal plan before (j + 1) (x + pace.latency j) q t := by
  obtain ⟨hs, hp⟩ := h
  have htime : x = pace.time j := by
    rw [← hp.time, max_eq_left hdue]
  have hstart : pace.start ≤ x + pace.latency j :=
    hp.start_le.trans (hdue.trans (le_add_of_nonneg_right (pace.latency_nonneg j)))
  have htallied : (p.tallied (refusal j)).index = p.index := by
    cases refusal j <;> rfl
  have hindex : 0 ≤ (p.tallied (refusal j)).index := by
    rw [htallied, hp.index]
    exact (Int.natCast_nonneg j).trans (pace.index_ge j)
  obtain ⟨t, hsend, ht⟩ := hs.send ideal plan p
  obtain ⟨u, hadvance, hu⟩ := ht.advance _ hstart hindex
  rw [htallied] at hadvance
  refine ⟨_, u, ?_, ?_, hp.send hdue⟩
  · rw [Action.runFrom_bind, hsend]
    simp only [Action.runFrom_bind, hadvance]
  · rw [sends_succ, ← List.append_assoc, ← htime]
    exact hu

/-- One turn: the publisher ends with the last send of the pace made, or it goes on, keeping to the
pace, with fewer turns left. -/
theorem turn (ideal : w.Ideal count pace.latency refusal) (hquantum : 0 < tuning.pollQuantum)
    (hn : ∀ i, pace.time i < pace.start + plan.duration ↔ i < n)
    (h : Underway w count pace refusal plan before j x p s) (hj : j ≤ n) (fuel : Nat) :
    (∃ y t, Action.runFrom (loop w plan tuning pace.schedule (fuel + 1) p) s = (.ok p, t) ∧
      Underway w count pace refusal plan before j y p t ∧ n ≤ j) ∨
    ∃ i y q t, Action.runFrom (loop w plan tuning pace.schedule (fuel + 1) p) s =
        Action.runFrom (loop w plan tuning pace.schedule fuel q) t ∧
      Underway w count pace refusal plan before i y q t ∧ i ≤ n ∧
      turnsLeft (pace.start + plan.duration) tuning.pollQuantum n i y q.deadline <
        turnsLeft (pace.start + plan.duration) tuning.pollQuantum n j x p.deadline := by
  obtain ⟨hs, hp⟩ := h
  -- when the duration is over, so are the sends
  have hdone : ∀ {y : Rat}, Follows pace refusal j y p →
      pace.start + plan.duration ≤ y → n ≤ j := by
    intro y hy hover
    refine not_lt.mp fun hj => absurd ((hn j).mpr hj) (not_lt.mpr ?_)
    rw [← hy.time]
    exact hover.trans (le_max_left _ _)
  by_cases hover : pace.start + plan.duration ≤ x
  · refine .inl ⟨x, s, ?_, ⟨hs, hp⟩, hdone hp hover⟩
    exact loop_over _ _ _ _ (by rwa [hs.clock, over_iff])
  -- the connection works for a while, but not beyond the deadline
  have hslice : 0 ≤ slice tuning p x := le_max_left _ _
  obtain ⟨u, hpump, hu⟩ := hs.pump ideal hslice
  have hq := hp.wait hslice (max_le_max_left 0 (min_le_right _ _))
  have hxy : x ≤ x + slice tuning p x := le_add_of_nonneg_right hslice
  have hrun := loop_pump plan pace.schedule p fuel (by rwa [hs.clock, over_iff])
    (by rwa [hs.clock])
  simp only [hu.clock, over_iff] at hrun
  generalize x + slice tuning p x = y at hu hq hxy hrun
  by_cases hover' : pace.start + plan.duration ≤ y
  · exact .inl ⟨y, u, hrun.trans (if_pos hover'), ⟨hu, hq⟩, hdone hq hover'⟩
  rw [if_neg hover'] at hrun
  refine .inr ?_
  by_cases hdue : p.deadline ≤ y
  · -- the message is sent
    have hlater : j < n := by
      rw [← hn j, ← hq.time, max_eq_left hdue]
      exact not_le.mp hover'
    obtain ⟨q, t, hsend, ht⟩ := Underway.send ideal ⟨hu, hq⟩ hdue fuel
    exact ⟨j + 1, _, q, t, hrun.trans ((if_pos hdue).trans hsend), ht, hlater,
      turnsLeft_send hquantum hlater (hxy.trans (le_add_of_nonneg_right (pace.latency_nonneg j)))⟩
  · -- the deadline lies ahead
    rw [if_neg hdue] at hrun
    have hnap : 0 ≤ min (p.deadline - y) tuning.pollQuantum :=
      le_min (sub_nonneg.mpr (not_le.mp hdue).le) hquantum.le
    obtain ⟨v, hsleep, hv⟩ := hu.sleep ideal hnap
    rw [Action.runFrom_bind, hsleep] at hrun
    exact ⟨j, _, p, v, hrun, ⟨hv, hq.wait hnap ((min_le_left _ _).trans (le_max_right _ _))⟩, hj,
      turnsLeft_sleep hquantum hxy (not_le.mp hdue) (not_le.mp hover')⟩

/-- The loop makes the sends of the pace, given fuel for the turns that are left. -/
theorem loop_keeps_pace (ideal : w.Ideal count pace.latency refusal) (tuning : Tuning Rat)
    (hquantum : 0 < tuning.pollQuantum)
    (hn : ∀ i, pace.time i < pace.start + plan.duration ↔ i < n) (fuel : Nat)
    (h : Underway w count pace refusal plan before j x p s) (hj : j ≤ n)
    (hfuel : turnsLeft (pace.start + plan.duration) tuning.pollQuantum n j x p.deadline ≤ fuel) :
    ∃ y q t, Action.runFrom (loop w plan tuning pace.schedule fuel p) s = (.ok q, t) ∧
      Underway w count pace refusal plan before n y q t := by
  induction fuel generalizing j x p s with
  | zero => exact absurd hfuel (Nat.not_succ_le_zero _)
  | succ fuel ih =>
    rcases turn ideal hquantum hn h hj fuel with
      ⟨y, t, hrun, ht, hnj⟩ | ⟨i, y, q, t, hrun, ht, hi, hless⟩
    · obtain rfl : j = n := le_antisymm hj hnj
      exact ⟨y, p, t, hrun, ht⟩
    · rw [hrun]
      exact ih ht hi (by omega)

/-! ## §4 Whole runs -/

/-- A body that ends with a value, on a session that opens and closes. -/
theorem onSession_run {α : Type} (body : Client.Act Rat σ η α) (quiet : w.session.Quiet)
    (hopen : (w.session.connect s.state.env).1.outcome = .ok ())
    (hclose : ∀ env, (w.session.disconnect env).1.outcome = .ok ()) {more : List (Note Rat)}
    {R : α → Prop}
    (hbody : ∀ t : Traced (Note Rat) (Client σ η),
      t.state.env = (w.session.connect s.state.env).2 →
      ∃ a u, Action.runFrom body t = (.ok a, u) ∧
        Client.publishes u = Client.publishes t ++ more ∧ R a) :
    ∃ a u, Action.runFrom (Client.onSession w body) s = (.ok a, u) ∧
      Client.publishes u = Client.publishes s ++ more ∧ R a := by
  obtain ⟨t, hconnect, ht⟩ := Client.request_run quiet .connect (Client.inPhase .connecting s)
  rw [Session.answer, Client.inPhase_env, hopen] at hconnect
  obtain ⟨a, u, hrun, hu, ha⟩ := hbody (Client.inPhase .connected t) ht.env
  obtain ⟨v, hdisconnect, hv⟩ :=
    Client.request_run quiet .disconnect (Client.inPhase .disconnecting u)
  rw [Session.answer, hclose] at hdisconnect
  -- the session is closed after the body, and the client disconnected after that
  have hinner : Action.runFrom
      (do
        Client.enter .connected
        let result ← body
        Client.enter .disconnecting
        pure result : Client.Act Rat σ η α) t = (.ok a, Client.inPhase .disconnecting u) := by
    simp only [Action.runFrom_bind, Client.runFrom_enter, hrun, Action.runFrom_pure]
  have houter : Action.runFrom
      (do
        Client.request w .connect
        Action.closing (do
          Client.enter .connected
          let result ← body
          Client.enter .disconnecting
          pure result) (Client.request w .disconnect) : Client.Act Rat σ η α)
        (Client.inPhase .connecting s) = (.ok a, v) := by
    rw [Action.runFrom_bind, hconnect]
    refine (Action.closing_run hinner (by nofun)).trans ?_
    rw [hdisconnect]
    rfl
  refine ⟨a, Client.inPhase .disconnected v, ?_, ?_, ha⟩
  · rw [Client.onSession, Action.runFrom_bind, Client.runFrom_enter]
    exact Action.closing_run houter (by nofun)
  · calc Client.publishes v = Client.publishes u := hv.publishes_of_other rfl
      _ = Client.publishes t ++ more := hu
      _ = Client.publishes s ++ more := by
        rw [ht.publishes_of_other rfl, Client.publishes_inPhase]

/-- Publishing on an open session, with the clock at the start of the pace. -/
theorem publishAll_run (pace : Pace) (ideal : w.Ideal count pace.latency refusal)
    (hquantum : 0 < tuning.pollQuantum) (hpayload : plan.checkPayload w.memory = .ok ())
    (hinterval : pace.interval = plan.interval)
    (hn : ∀ i, pace.time i < pace.start + plan.duration ↔ i < n)
    (hstart : w.timer.now s.state.env = pace.start) (hcount : count s.state.env = 0) {fuel : Nat}
    (hfuel : 2 * n + ⌈plan.duration / tuning.pollQuantum⌉₊ + 1 ≤ fuel) :
    ∃ report t, Action.runFrom (publishAll w plan tuning fuel) s = (.ok report, t) ∧
      Client.publishes t = Client.publishes s ++ sends plan pace n ∧
      report.sent = (List.range n).countP (fun i => (refusal i).isNone) ∧
      report.errors = (List.range n).countP (fun i => (refusal i).isSome) := by
  obtain ⟨t, hlog, ht⟩ := Client.log_run (w := w) .info logger
    ("Publishing " ++ toString plan.payloadSize ++ "-byte payload to " ++ plan.settings.topic ++
      " every " ++ Seconds.text plan.interval ++ "s for " ++ Seconds.text plan.duration ++ "s") s
  have hfirst : pace.schedule.deadline 0 = .ok (pace.deadline 0) :=
    pace.schedule.deadline_rat le_rfl
  have hschedule :
      (⟨pace.start, plan.interval, plan.interval_pos⟩ : Schedule Rat) = pace.schedule := by
    simp only [Pace.schedule, hinterval]
  have hbegin : Underway w count pace refusal plan (Client.publishes s) 0 pace.start
      { deadline := pace.deadline 0 } (Client.inPhase .active t) := by
    refine ⟨⟨rfl, ?_, ?_, ?_⟩, ⟨rfl, rfl, ?_, rfl, rfl⟩⟩
    · exact (congrArg count ht.env).trans hcount
    · exact (congrArg w.timer.now ht.env).trans hstart
    · exact ht.publishes
    · simp [Pace.deadline, Pace.time, Pace.slot]
  have hturns : turnsLeft (pace.start + plan.duration) tuning.pollQuantum n 0 pace.start
      (pace.deadline 0) = 2 * n + ⌈plan.duration / tuning.pollQuantum⌉₊ + 1 := by
    simp [turnsLeft, Pace.deadline]
  obtain ⟨y, q, u, hloop, hu⟩ :=
    loop_keeps_pace ideal tuning hquantum hn fuel hbegin (Nat.zero_le n) (hturns.trans_le hfuel)
  refine ⟨{ sent := q.sent, elapsed := y - pace.start, errors := q.errors }, u, ?_, hu.stands.calls,
    congrArg Nat.cast hu.follows.sent, hu.follows.errors⟩
  have hnow : w.timer.now t.state.env = pace.start := by
    rw [ht.env, hstart]
  simp only [publishAll, hpayload, Action.ofExcept, Action.runFrom_bind, Action.runFrom_pure, hlog,
    Client.runFrom_enter, Client.inPhase_env, Client.runFrom_now, hnow, hschedule, hfirst, hloop,
    hu.stands.clock, Seconds.sub_rat]

/-- A publisher on ideal surroundings sends at exactly the times of its pace, as long as they lie
before the end of the duration, whatever its tuning is; it returns, and every send is counted as
sent or as an error. If no send takes longer than the interval, that is one send for each deadline
before the end. -/
theorem run_keeps_pace {latency : Nat → Rat} (ideal : w.Ideal count latency refusal)
    (plan : Plan Rat) (hpayload : plan.checkPayload w.memory = .ok ())
    (s : Traced (Note Rat) (Client σ η))
    (hopen : (w.session.connect s.state.env).1.outcome = .ok ())
    (hcount : count (w.session.connect s.state.env).2 = 0) :
    let start := w.timer.now (w.session.connect s.state.env).2
    let pace := plan.pace start ideal.latency_nonneg
    ∃ n : Nat, (∀ j, pace.time j < start + plan.duration ↔ j < n) ∧
      ((∀ j, latency j ≤ plan.interval) →
        (∀ j, pace.time j = start + j * plan.interval) ∧ n = ⌈plan.duration / plan.interval⌉₊) ∧
      ∀ tuning : Tuning Rat, 0 < tuning.pollQuantum →
        ∀ fuel, 2 * n + ⌈plan.duration / tuning.pollQuantum⌉₊ + 1 ≤ fuel →
          ∃ report t, Action.runFrom (run w plan tuning fuel) s = (.ok report, t) ∧
            Client.publishes t =
              Client.publishes s ++ (List.range n).map (fun j => sendOf plan (pace.time j)) ∧
            report.sent + report.errors = n ∧
            report.errors = (List.range n).countP (fun j => (refusal j).isSome) ∧
            ((∀ j, latency j ≤ plan.interval) → report.errors = 0 →
              |report.sent - ⌊plan.duration / plan.interval⌋ - 1| ≤ 1) := by
  intro start pace
  obtain ⟨n, hn⟩ := pace.exists_count (start + plan.duration)
  have hcounted : (∀ j, latency j ≤ plan.interval) → n = ⌈plan.duration / plan.interval⌉₊ :=
    fun hprompt => pace.count_of_prompt hprompt hn
  refine ⟨n, hn, fun hprompt => ⟨pace.time_of_prompt hprompt, hcounted hprompt⟩, ?_⟩
  intro tuning hquantum fuel hfuel
  obtain ⟨report, t, hrun, ht, hsent, herrors⟩ :=
    onSession_run (s := s) (publishAll w plan tuning fuel) ideal.quiet hopen ideal.disconnect
      fun u hu => publishAll_run pace ideal hquantum hpayload rfl hn (congrArg w.timer.now hu)
        ((congrArg count hu).trans hcount) hfuel
  obtain ⟨u, hlog, hu⟩ := Client.log_run (w := w) .info logger
    ("Sent " ++ integerText report.sent ++ " messages in " ++ Seconds.fixed 3 report.elapsed ++ "s")
    t
  -- every send was taken or refused
  have htotal : report.sent + report.errors = n := by
    have hsplit :=
      List.length_eq_countP_add_countP (fun i => (refusal i).isNone) (l := List.range n)
    simp only [List.length_range, Bool.not_eq_true, Option.isNone_eq_false_iff,
      Bool.decide_eq_true] at hsplit
    rw [hsent, herrors]
    exact_mod_cast hsplit.symm
  refine ⟨report, u, ?_, ?_, htotal, herrors, ?_⟩
  · simp only [run, Action.runFrom_bind, hrun, hlog, Action.runFrom_pure]
  · rw [hu.publishes, List.filter_nil, List.append_nil, ht]
    rfl
  · intro hprompt hnone
    have hall : report.sent = (⌈plan.duration / plan.interval⌉₊ : Int) := by
      rw [← hcounted hprompt, ← htotal, hnone]
      simp
    rw [hall]
    exact Pace.ceil_near_floor
      (div_nonneg (of_decide_eq_true plan.duration_pos).le pace.interval_pos.le)

/-- A plan for eight seconds with a message every two seconds. -/
def eightSeconds : Plan Rat where
  publishers := 1
  subscribers := 0
  payloadSize := 1
  duration := 8
  interval := 2
  settings :=
    { broker := { host := "localhost" }, topic := "seconds", qos := 2, keepalive := 30,
      username := none, password := none, topic_ne := by decide, qos_mem := by decide,
      keepalive_pos := by decide }
  duration_pos := by decide
  interval_pos := by decide

/-- The second send takes five seconds, the others half a second. -/
def slowSecond (j : Nat) : Rat := if j = 1 then 5 else 1 / 2

theorem slowSecond_nonneg (j : Nat) : 0 ≤ slowSecond j := by
  unfold slowSecond
  split <;> norm_num

/-- The third send is refused. -/
def refusedThird (j : Nat) : Option PublishError := if j = 2 then some (.other "lost") else none

/-- After the slow send the next one is made at once; the end comes before the one after that. -/
theorem slow_run_keeps_pace :
    ∃ report t, Action.runFrom
        (run (Surroundings.exact slowSecond refusedThird) eightSeconds .standard 200)
        ⟨{ env := (10, 0), kept := () }, []⟩ = (.ok report, t) ∧
      Client.publishes t =
        [sendOf eightSeconds 10, sendOf eightSeconds 12, sendOf eightSeconds 17] ∧
      report.sent + report.errors = 3 ∧ report.errors = 1 := by
  obtain ⟨n, hn, -, hrun⟩ := run_keeps_pace
    (Surroundings.exact_ideal slowSecond_nonneg refusedThird) eightSeconds rfl
    ⟨{ env := (10, 0), kept := () }, []⟩ rfl rfl
  have hlast : 2 < n := (hn 2).mp (by decide +kernel)
  have hend : ¬ 3 < n := fun h => absurd ((hn 3).mpr h) (by decide +kernel)
  obtain rfl : n = 3 := by omega
  obtain ⟨report, t, hreport, ht, hsum, herrors, -⟩ :=
    hrun .standard (by decide +kernel) 200 (by decide +kernel)
  have htimes : (List.range 3).map (eightSeconds.pace 10 slowSecond_nonneg).time =
      [10, 12, 17] := by decide +kernel
  refine ⟨report, t, hreport, ?_, hsum, herrors.trans (by decide +kernel)⟩
  calc Client.publishes t
      = ((List.range 3).map (eightSeconds.pace 10 slowSecond_nonneg).time).map
          (sendOf eightSeconds) := by rw [List.map_map]; exact ht
    _ = [sendOf eightSeconds 10, sendOf eightSeconds 12, sendOf eightSeconds 17] := by
      rw [htimes]
      rfl

end Publisher

end BrokerLoad
