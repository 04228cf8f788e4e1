import BrokerLoad.Proofs.Client.Loops
import BrokerLoad.Rehearsal.Session

/-!
# The life cycle of a client

A run of a client is a life: it connects, does its work on the open session and disconnects, whatever
its surroundings answer. Here the shape of such a life is written down once for both kinds of client,
with the phase in which each request is made and the way in which a fault ends it, and it is shown
that any number of runs on the same client are that many lives, one after the other.

## Main definitions

* `Client.Ended`: how some work ended, and which deal is to blame.
* `Client.Life`: the shape of a life.
* `Publisher.Acts`, `Subscriber.Acts`: the work of a publisher and of a subscriber.
* `Client.rerun`: an action again and again on the same client.

## Main statements

* `Client.life_of_session`: an action on a session is a life, if its body is work.
* `Client.clients_live`: the runs of a client are lives.
-/

namespace BrokerLoad

variable {τ σ η : Type}

/-! ## §1 Lives -/

/-- Whether a client goes on after a deal: there was no fault, or a message was not published. -/
def Deal.Passes (d : Deal τ) : Prop :=
  d.outcome = .ok () ∨
    ∃ topic payload qos phase e, d.Asks (.publish topic payload qos) phase ∧
      d.outcome = .error (.fault (.publish e))

namespace Client

/-- How some work ended. It was done, or it goes on for ever, or its last deal raised the fault that
ended it, or the fault is one of the client's own. -/
inductive Ended (own : Fault → Prop) : List (Deal τ) → Except Stop Unit → Prop
  | well {deals} : (∀ d ∈ deals, d.Passes) → Ended own deals (.ok ())
  | spent {deals} : (∀ d ∈ deals, d.Passes) → Ended own deals (.error .outOfFuel)
  | broken {deals d stop} : (∀ d ∈ deals, d.Passes) → ¬ d.Passes → d.outcome = .error stop →
    Ended own (deals ++ [d]) (.error stop)
  | own {deals f} : (∀ d ∈ deals, d.Passes) → own f → Ended own deals (.error (.fault f))

theorem Ended.cons {own : Fault → Prop} {d : Deal τ} {deals : List (Deal τ)}
    {result : Except Stop Unit} (hd : d.Passes) (h : Ended own deals result) :
    Ended own (d :: deals) result := by
  cases h with
  | well h => exact .well (List.forall_mem_cons.mpr ⟨hd, h⟩)
  | spent h => exact .spent (List.forall_mem_cons.mpr ⟨hd, h⟩)
  | @broken before e stop h hnot he =>
    rw [← List.cons_append]
    exact .broken (List.forall_mem_cons.mpr ⟨hd, h⟩) hnot he
  | own h hf => exact .own (List.forall_mem_cons.mpr ⟨hd, h⟩) hf

/-- The phase in which a session is closed after work that ended in some phase. -/
def closingPhase (phase : Phase) : Except Stop Unit → Phase
  | .ok () => .disconnecting
  | .error _ => phase

/-- The deals of a life and how it ended. The client connects once; if that fails, there is no other
request. If the work ends, the client disconnects once, as its last deal, and the fault of the work,
if any, is that of the life. Work that goes on for ever is never followed by anything. -/
inductive Life (Work : List (Deal τ) → Phase → Except Stop Unit → Prop) :
    List (Deal τ) → Except Stop Unit → Prop
  | unopened {d stop} : d.Asks .connect .connecting → d.outcome = .error stop →
    Life Work [d] (.error stop)
  | endless {d work phase} : d.Asks .connect .connecting → d.outcome = .ok () →
    Work work phase (.error .outOfFuel) → Life Work (d :: work) (.error .outOfFuel)
  | closed {d work phase result e} : d.Asks .connect .connecting → d.outcome = .ok () →
    Work work phase result → result ≠ .error .outOfFuel →
    e.Asks .disconnect (closingPhase phase result) →
    Life Work (d :: (work ++ [e])) (e.outcome.bind fun _ => result)

/-- How an action ended, whatever its value. -/
def ending {α : Type} (outcome : Except Stop α) : Except Stop Unit := outcome.map fun _ => ()

/-- From `s` an action made the deals of a life. The client is disconnected then, unless the life
goes on for ever. -/
structure Lives {α : Type} (w : Surroundings τ σ η)
    (Work : List (Deal τ) → Phase → Except Stop Unit → Prop) (s : Traced (Note τ) (Client σ η))
    (deals : List (Deal τ)) (e : Except Stop α × Traced (Note τ) (Client σ η)) : Prop where
  course : Course w s deals e.2
  life : Life Work deals (ending e.1)
  phase : e.1 ≠ .error .outOfFuel → e.2.state.phase = .disconnected

variable {w : Surroundings τ σ η}

theorem ending_bind {α : Type} (outcome : Except Stop Unit) (result : Except Stop α) :
    ending (outcome.bind fun _ => result) = outcome.bind fun _ => ending result := by
  cases outcome <;> rfl

theorem ending_map {α β : Type} (f : α → β) (outcome : Except Stop α) :
    ending (outcome.map f) = ending outcome := by
  cases outcome <;> rfl

theorem ending_unit (outcome : Except Stop Unit) : ending outcome = outcome := by
  cases outcome <;> rfl

theorem phase_closed {α : Type} {result : Except Stop α} {t : Traced (Note τ) (Client σ η)}
    (hfuel : ((closing w t).bind fun _ => result) ≠ .error .outOfFuel) :
    (closed w t).state.phase = .disconnected := by
  apply closed_phase
  intro hclosing
  exact hfuel (by rw [hclosing]; rfl)

/-- An action on a session is a life, if its body is work. -/
theorem life_of_session {α : Type} {Work : List (Deal τ) → Phase → Except Stop Unit → Prop}
    {body : Act τ σ η α}
    (hbody : ∀ s, s.state.phase = .connected →
      ∃ work, Course w s work (Action.runFrom body s).2 ∧
        Work work (Action.runFrom body s).2.state.phase (ending (Action.runFrom body s).1))
    (s : Traced (Note τ) (Client σ η)) :
    ∃ deals, Lives w Work s deals (Action.runFrom (onSession w body) s) := by
  have hopened := opened_course (w := w) s
  obtain ⟨work, hwork, hends⟩ := hbody (inPhase .connected (opened w s)) rfl
  have hend := sessionEnd_run (w := w) body s
  generalize Action.runFrom (onSession w body) s = e at hend
  obtain ⟨outcome, t⟩ := e
  dsimp only at hend
  cases hend with
  | unopened hopen =>
    exact ⟨_, hopened.enter .disconnected, .unopened rfl hopen, fun _ => rfl⟩
  | waiting hopen => exact ⟨_, hopened, .unopened rfl hopen, fun h => absurd rfl h⟩
  | endless hopen hrun =>
    rw [hrun] at hwork hends
    exact ⟨_, (hopened.enter .connected).trans hwork, .endless rfl hopen hends,
      fun h => absurd rfl h⟩
  | broken hopen hrun =>
    rw [hrun] at hwork hends
    refine ⟨_, (hopened.enter .connected).trans (hwork.trans (closed_course _)), ?_, phase_closed⟩
    rw [ending_bind]
    exact .closed rfl hopen hends (Action.fault_ne_outOfFuel _) rfl
  | done hopen hrun =>
    rw [hrun] at hwork hends
    refine ⟨_, (hopened.enter .connected).trans ((hwork.enter _).trans (closed_course _)), ?_,
      phase_closed⟩
    rw [ending_bind]
    exact .closed rfl hopen hends (Action.ok_ne_outOfFuel _) rfl

/-- What only logs after a life adds nothing to it. -/
theorem Lives.then {α β : Type} {Work : List (Deal τ) → Phase → Except Stop Unit → Prop}
    {s : Traced (Note τ) (Client σ η)} {deals : List (Deal τ)} {x : Act τ σ η α}
    {f : α → Act τ σ η β} (h : Lives w Work s deals (Action.runFrom x s))
    (hf : ∀ a t, ∃ b record, Action.runFrom (f a) t = (.ok b, remarked w (.log record) t)) :
    Lives w Work s deals (Action.runFrom (x >>= f) s) := by
  rw [Action.runFrom_bind]
  generalize Action.runFrom x s = e at h
  obtain ⟨outcome, t⟩ := e
  cases outcome with
  | error stop =>
    refine ⟨h.course, h.life, fun hfuel => h.phase fun hstop => hfuel ?_⟩
    cases hstop
    rfl
  | ok a =>
    obtain ⟨b, record, hrun⟩ := hf a t
    simp only [hrun]
    exact ⟨h.course.log record, h.life, fun _ => h.phase (by nofun)⟩

end Client

/-! ## §2 The work of a publisher -/

namespace Publisher

theorem afterSend_error {p : Progress τ} {outcome : Except Stop Unit} {stop : Stop}
    (h : p.afterSend outcome = .error stop) : outcome = .error stop := by
  unfold Progress.afterSend at h
  split at h
  · cases h
  · cases h
  · cases h
    rfl

/-- A wait with a fault is no refused message, so the publisher does not go on. -/
theorem Waits.not_passes {d : Deal τ} (h : Waits d) {stop : Stop} (hend : d.outcome = .error stop) :
    ¬ d.Passes := by
  rintro (hok | ⟨_, _, _, _, _, hasks, -⟩)
  · rw [hok] at hend
    cases hend
  · cases h <;> cases hasks

variable [Seconds τ]

/-- Whether the arithmetic of a plan's schedule can end in a fault. -/
def Errs (plan : Plan τ) (f : Fault) : Prop :=
  ∃ start, (∃ k, (scheduleOf plan start).deadline k = .error f) ∨
    ∃ now, (scheduleOf plan start).lastDue now = .error f

/-- The work of a publisher, the phase it ends in, and how it ends. A payload that does not fit into
the memory is found out before the loop; in the loop an active publisher pumps, publishes and
sleeps. -/
inductive Acts (plan : Plan τ) (memory : Nat) : List (Deal τ) → Phase → Except Stop Unit → Prop
  | unfit {f} : plan.checkPayload memory = .error f →
    Acts plan memory [] .connected (.error (.fault f))
  | active {deals result} :
    (∀ d ∈ deals, Waits d ∨ d.Asks (sendRequest plan) .active) →
    Client.Ended (Errs plan) deals result → Acts plan memory deals .active result

variable {plan : Plan τ} {p : Progress τ}

/-- A publisher goes on after a send if and only if it counts. -/
theorem passes_sendDeal (time : τ) (outcome : Except Stop Unit) :
    (sendDeal plan time outcome).Passes ↔ ∃ q, p.afterSend outcome = .ok q := by
  constructor
  · rintro (hok | ⟨_, _, _, _, e, -, hrefused⟩)
    · rw [sendDeal] at hok
      subst hok
      exact ⟨_, rfl⟩
    · rw [sendDeal] at hrefused
      subst hrefused
      exact ⟨_, rfl⟩
  · rintro ⟨q, hq⟩
    unfold Progress.afterSend at hq
    split at hq
    · exact .inl rfl
    · exact .inr ⟨_, _, _, _, _, rfl, rfl⟩
    · cases hq

theorem Turns.works {schedule : Schedule τ} {deals : List (Deal τ)}
    {result : Except Stop (Progress τ)} (h : Turns plan schedule p deals result) :
    ∀ d ∈ deals, Waits d ∨ d.Asks (sendRequest plan) .active := by
  induction h with
  | finished => exact List.forall_mem_nil _
  | spent => exact List.forall_mem_nil _
  | lost hd _ => exact List.forall_mem_singleton.mpr (.inl hd)
  | waited hd _ _ ih => exact List.forall_mem_cons.mpr ⟨.inl hd, ih⟩
  | failed _ => exact List.forall_mem_singleton.mpr (.inr rfl)
  | astray _ _ => exact List.forall_mem_singleton.mpr (.inr rfl)
  | sent _ _ _ ih => exact List.forall_mem_cons.mpr ⟨.inr rfl, ih⟩

/-- The next deadline can only fail by the arithmetic of the schedule. -/
theorem errs_of_advanced {start now : τ} {f : Fault}
    (h : p.advanced (scheduleOf plan start) now = .error f) : Errs plan f := by
  refine ⟨start, ?_⟩
  unfold Progress.advanced at h
  cases hdue : (scheduleOf plan start).lastDue now with
  | error g =>
    rw [hdue] at h
    cases h
    exact .inr ⟨now, hdue⟩
  | ok due =>
    rw [hdue, Except.bind] at h
    cases hdeadline : (scheduleOf plan start).deadline (max (p.index + 1) due) with
    | error g =>
      rw [hdeadline] at h
      cases h
      exact .inl ⟨_, hdeadline⟩
    | ok deadline =>
      rw [hdeadline] at h
      cases h

theorem Turns.ended {start : τ} {deals : List (Deal τ)} {result : Except Stop (Progress τ)}
    (h : Turns plan (scheduleOf plan start) p deals result) :
    Client.Ended (Errs plan) deals (Client.ending result) := by
  induction h with
  | finished => exact .well (List.forall_mem_nil _)
  | spent => exact .spent (List.forall_mem_nil _)
  | lost hd hend => exact .broken (List.forall_mem_nil _) (hd.not_passes hend) hend
  | waited _ hok _ ih => exact ih.cons (.inl hok)
  | failed hafter =>
    refine .broken (List.forall_mem_nil _) ?_ (afterSend_error hafter)
    rw [passes_sendDeal, hafter]
    nofun
  | astray hafter hadvanced =>
    exact .own (List.forall_mem_singleton.mpr ((passes_sendDeal _ _).mpr ⟨_, hafter⟩))
      (errs_of_advanced hadvanced)
  | sent hafter _ _ ih => exact ih.cons ((passes_sendDeal _ _).mpr ⟨_, hafter⟩)

variable {w : Surroundings τ σ η}

theorem Published.acts {s t : Traced (Note τ) (Client σ η)} {deals : List (Deal τ)}
    {result : Except Stop (Report τ)} (h : Published w plan s deals result t)
    (hconnected : s.state.phase = .connected) :
    Client.Course w s deals t ∧ Acts plan w.memory deals t.state.phase (Client.ending result) := by
  cases h with
  | unfit hpayload =>
    refine ⟨.stay, ?_⟩
    rw [hconnected]
    exact .unfit hpayload
  | unscheduled hfirst hcourse hactive =>
    refine ⟨hcourse, ?_⟩
    rw [hactive]
    exact .active (List.forall_mem_nil _) (.own (List.forall_mem_nil _) ⟨_, .inl ⟨0, hfirst⟩⟩)
  | turned _ hcourse hactive hturns =>
    refine ⟨hcourse, ?_⟩
    rw [hactive, Client.ending_map]
    exact .active hturns.works hturns.ended

/-- A run of a publisher is a life. -/
theorem run_life (plan : Plan τ) (tuning : Tuning τ) (fuel : Nat)
    (s : Traced (Note τ) (Client σ η)) :
    ∃ deals, Client.Lives w (Acts plan w.memory) s deals
      (Action.runFrom (run w plan tuning fuel) s) := by
  have hsession : ∃ deals, Client.Lives w (Acts plan w.memory) s deals
      (Action.runFrom (Client.onSession w (publishAll w plan tuning fuel)) s) := by
    apply Client.life_of_session
    intro t hconnected
    obtain ⟨deals, hdeals⟩ := publishAll_published (w := w) plan tuning fuel t
    exact ⟨deals, hdeals.acts hconnected⟩
  obtain ⟨deals, hdeals⟩ := hsession
  exact ⟨deals, hdeals.then fun report t => ⟨report, _, rfl⟩⟩

end Publisher

/-! ## §3 The work of a subscriber -/

namespace Subscriber

/-- The work of a subscriber, the phase it ends in, and how it ends. It subscribes once; if that
succeeds, an active subscriber only pumps. -/
inductive Acts (settings : ClientSettings) (timeout : τ) :
    List (Deal τ) → Phase → Except Stop Unit → Prop
  | refused {d stop} : d.Asks (.subscribe settings.topic settings.qos) .connected →
    d.outcome = .error stop → Acts settings timeout [d] .connected (.error stop)
  | active {d deals result} : d.Asks (.subscribe settings.topic settings.qos) .connected →
    d.outcome = .ok () → (∀ e ∈ deals, e.Asks (.pump timeout) .active) →
    Client.Ended (fun _ => False) deals result → Acts settings timeout (d :: deals) .active result

variable {w : Surroundings τ σ η} {settings : ClientSettings} {timeout : τ} {fuel : Nat}

theorem Drains.works {s t : Traced (Note τ) (Client σ η)} {deals : List (Deal τ)}
    {result : Except Stop Unit} (h : Drains w timeout fuel s deals result t)
    (hactive : s.state.phase = .active) : ∀ d ∈ deals, d.Asks (.pump timeout) .active := by
  have hpump : ∀ u : Traced (Note τ) (Client σ η), u.state.phase = .active →
      (Client.requestDeal w (.pump timeout) u).Asks (.pump timeout) .active := by
    intro u hu
    rw [← hu]
    rfl
  induction h with
  | spent => exact List.forall_mem_nil _
  | stopped _ => exact List.forall_mem_nil _
  | lost _ _ => exact List.forall_mem_singleton.mpr (hpump _ hactive)
  | pumped _ _ _ ih =>
    refine List.forall_mem_cons.mpr ⟨hpump _ hactive, ih ?_⟩
    rw [Client.asked_phase, hactive]

theorem Drains.ended {s t : Traced (Note τ) (Client σ η)} {deals : List (Deal τ)}
    {result : Except Stop Unit} (h : Drains w timeout fuel s deals result t) :
    Client.Ended (fun _ => False) deals result := by
  induction h with
  | spent => exact .spent (List.forall_mem_nil _)
  | stopped _ => exact .well (List.forall_mem_nil _)
  | @lost fuel s stop _ hend =>
    refine .broken (List.forall_mem_nil _) ?_ hend
    rintro (hok | ⟨_, _, _, _, _, hasks, -⟩)
    · rw [hok] at hend
      cases hend
    · cases hasks
  | pumped _ hok _ ih => exact ih.cons (.inl hok)

theorem serve_acts (settings : ClientSettings) (timeout : τ) (fuel : Nat)
    {s : Traced (Note τ) (Client σ η)} (hconnected : s.state.phase = .connected) :
    ∃ deals, Client.Course w s deals (Action.runFrom (serve w settings timeout fuel) s).2 ∧
      Acts settings timeout deals (Action.runFrom (serve w settings timeout fuel) s).2.state.phase
        (Action.runFrom (serve w settings timeout fuel) s).1 := by
  have hasks : (Client.requestDeal w (.subscribe settings.topic settings.qos) s).Asks
      (.subscribe settings.topic settings.qos) .connected := by
    rw [← hconnected]
    rfl
  have hcourse : Client.Course w s
      [Client.requestDeal w (.subscribe settings.topic settings.qos) s]
      (Client.asked w (.subscribe settings.topic settings.qos) s) := .request _ .stay
  rw [serve_eq]
  cases hend : (Client.requestDeal w (.subscribe settings.topic settings.qos) s).outcome with
  | error stop =>
    refine ⟨_, hcourse, ?_⟩
    rw [Client.asked_phase, hconnected]
    exact .refused hasks hend
  | ok _ =>
    obtain ⟨deals, hdeals⟩ := drain_drains (w := w) timeout fuel (granted w settings s)
    refine ⟨_, ((hcourse.log _).enter .active).trans hdeals.course, ?_⟩
    dsimp only
    rw [hdeals.phase]
    exact .active hasks hend (hdeals.works rfl) hdeals.ended

/-- A run of a subscriber is a life. -/
theorem run_life (settings : ClientSettings) (timeout : τ) (fuel : Nat)
    (s : Traced (Note τ) (Client σ η)) :
    ∃ deals, Client.Lives w (Acts settings timeout) s deals
      (Action.runFrom (run w settings timeout fuel) s) := by
  have hsession : ∃ deals, Client.Lives w (Acts settings timeout) s deals
      (Action.runFrom (Client.onSession w (serve w settings timeout fuel)) s) := by
    apply Client.life_of_session
    intro t hconnected
    obtain ⟨deals, hcourse, hacts⟩ := serve_acts (w := w) settings timeout fuel hconnected
    exact ⟨deals, hcourse, by rwa [Client.ending_unit]⟩
  obtain ⟨deals, hdeals⟩ := hsession
  rw [run_eq]
  exact ⟨deals, hdeals.then fun _ t => ⟨t.state.received, _, rfl⟩⟩

end Subscriber

/-! ## §4 One life after the other -/

namespace Client

/-- An action again and again: how each run ended, and what it left. -/
def rerun {S α : Type} (a : Action S α) : Nat → S → List (Except Stop α × S)
  | 0, _ => []
  | n + 1, s => Action.runFrom a s :: rerun a n (Action.runFrom a s).2

/-- What the last of some runs left, or the first state if there was none. -/
def lastState {S α : Type} (s : S) : List (Except Stop α × S) → S
  | [] => s
  | e :: runs => lastState e.2 runs

/-- Some runs, one after the other, are lives. -/
inductive LiveOn {α : Type} (w : Surroundings τ σ η)
    (Work : List (Deal τ) → Phase → Except Stop Unit → Prop) :
    Traced (Note τ) (Client σ η) → List (List (Deal τ)) →
      List (Except Stop α × Traced (Note τ) (Client σ η)) → Prop
  | nil {s} : LiveOn w Work s [] []
  | cons {s deals e lives runs} : Lives w Work s deals e → LiveOn w Work e.2 lives runs →
    LiveOn w Work s (deals :: lives) (e :: runs)

/-- A number of runs of an action are that many lives, and the client does nothing besides. -/
def LivesAgain {α : Type} (w : Surroundings τ σ η)
    (Work : List (Deal τ) → Phase → Except Stop Unit → Prop) (a : Act τ σ η α) (n : Nat)
    (s : Traced (Note τ) (Client σ η)) : Prop :=
  ∃ lives, LiveOn w Work s lives (rerun a n s) ∧
    deeds (lastState s (rerun a n s)) = deeds s ++ lives.flatten.map Deal.note

variable {w : Surroundings τ σ η} {Work : List (Deal τ) → Phase → Except Stop Unit → Prop}

theorem liveOn_rerun {α : Type} {a : Act τ σ η α}
    (h : ∀ s, ∃ deals, Lives w Work s deals (Action.runFrom a s)) (n : Nat)
    (s : Traced (Note τ) (Client σ η)) : ∃ lives, LiveOn w Work s lives (rerun a n s) := by
  induction n generalizing s with
  | zero => exact ⟨[], .nil⟩
  | succ n ih =>
    obtain ⟨deals, hdeals⟩ := h s
    obtain ⟨lives, hlives⟩ := ih (Action.runFrom a s).2
    exact ⟨deals :: lives, .cons hdeals hlives⟩

theorem LiveOn.deeds (quiet : w.session.Quiet) {α : Type} {s : Traced (Note τ) (Client σ η)}
    {lives : List (List (Deal τ))} {runs : List (Except Stop α × Traced (Note τ) (Client σ η))}
    (h : LiveOn w Work s lives runs) :
    deeds (lastState s runs) = deeds s ++ lives.flatten.map Deal.note := by
  induction h with
  | nil => rw [List.flatten_nil, List.map_nil, List.append_nil, lastState]
  | cons hlife _ ih =>
    rw [lastState, ih, hlife.course.deeds quiet, List.flatten_cons, List.map_append,
      List.append_assoc]

theorem livesAgain (quiet : w.session.Quiet) {α : Type} {a : Act τ σ η α}
    (h : ∀ s, ∃ deals, Lives w Work s deals (Action.runFrom a s)) (n : Nat)
    (s : Traced (Note τ) (Client σ η)) : LivesAgain w Work a n s := by
  obtain ⟨lives, hlives⟩ := liveOn_rerun h n s
  exact ⟨lives, hlives, hlives.deeds quiet⟩

/-- Any number of runs on the same client, publisher or subscriber, are that many lives, whatever
its surroundings answer. -/
theorem clients_live [Seconds τ] (quiet : w.session.Quiet) (n : Nat)
    (s : Traced (Note τ) (Client σ η)) :
    (∀ plan tuning fuel,
      LivesAgain w (Publisher.Acts plan w.memory) (Publisher.run w plan tuning fuel) n s) ∧
    ∀ settings timeout fuel,
      LivesAgain w (Subscriber.Acts settings timeout) (Subscriber.run w settings timeout fuel) n s :=
  ⟨fun plan tuning fuel => livesAgain quiet (Publisher.run_life plan tuning fuel) n s,
    fun settings timeout fuel => livesAgain quiet (Subscriber.run_life settings timeout fuel) n s⟩

/-- A scripted session reports messages and requests to stop only. -/
theorem rehearsal_quiet [Seconds τ] :
    (SessionRehearsal.session : Session τ (SessionRehearsal τ)).Quiet := by
  intro r rehearsal n hn
  cases r with
  | pump timeout =>
    rcases List.mem_append.mp hn with harrival | hstop
    · obtain ⟨m, -, rfl⟩ := List.mem_map.mp harrival
      rfl
    · split at hstop
      · rw [List.mem_singleton.mp hstop]
        rfl
      · cases hstop
  | _ => cases hn

/-- A session whose second pump loses the connection and whose third one asks the client to stop. -/
def lossy : Surroundings Rat (SessionRehearsal Rat) Unit where
  session := SessionRehearsal.session
  timer := SessionRehearsal.timer
  handler := .discard

/-- A client that has not run yet. -/
def unused : Traced (Note Rat) (Client (SessionRehearsal Rat) Unit) where
  state :=
    { env :=
        { script :=
            { latency := 0
              pumps := [{}, { fault := some (.connect (.other "lost")) }, { stops := true }] }
          now := 0 }
      kept := () }

/-- Settings for a subscriber to all topics, with the defaults else. -/
def everything : ClientSettings where
  broker := { host := "localhost" }
  topic := "#"
  qos := ({} : Defaults).qos
  keepalive := defaultKeepalive
  username := none
  password := none
  topic_ne := by decide
  qos_mem := by decide
  keepalive_pos := by decide

/-- The first run loses the connection, the second one ends when it is asked to; both leave the
subscriber disconnected. -/
theorem lost_subscriber_lives_again :
    lossy.session.Quiet ∧
      LivesAgain lossy (Subscriber.Acts everything (1 / 10))
        (Subscriber.run lossy everything (1 / 10) 5) 2 unused ∧
      (rerun (Subscriber.run lossy everything (1 / 10) 5) 2 unused).map
          (fun e => (ending e.1, e.2.state.phase)) =
        [(.error (.fault (.connect (.other "lost"))), .disconnected), (.ok (), .disconnected)] :=
  ⟨rehearsal_quiet, (clients_live rehearsal_quiet 2 unused).2 _ _ _, rfl⟩

end Client

end BrokerLoad
