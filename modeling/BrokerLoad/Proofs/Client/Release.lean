import BrokerLoad.Proofs.Client.Dialogue
import BrokerLoad.Proofs.Client.LifeCycle

/-!
# Connections are given back

A client that opened a connection ends it again, unless the network ended it already. The library is
told so at one of two places: by the handshake itself when the broker turns the connection away, or
when the session is closed and the connection is still up. Which of them it is follows from the last
sign that the exchanges give, so never both, and none only where there is nothing left to end.

## Main definitions

* `hangUps`: how often the library is told to end the connection.
* `sessionSigns`: the signs of an open session, by which it is up or down.
* `Released`: the connection of a run is given back.

## Main statements

* `Client.session_released`: an action on a session gives its connection back.
* `Client.clients_released`: both kinds of client do.
-/

namespace BrokerLoad

variable {τ σ η : Type}

/-! ## §1 Ends of connections -/

/-- How often the library is told to end the connection. -/
def hangUps (xs : List (Exchange τ)) : Nat := xs.countP Exchange.isHangUp

theorem hangUps_append (xs ys : List (Exchange τ)) :
    hangUps (xs ++ ys) = hangUps xs + hangUps ys := List.countP_append

/-- Exchanges that neither open nor close a connection. -/
theorem hangUps_work {xs : List (Exchange τ)} (h : ∀ x ∈ xs, x.isWork = true) : hangUps xs = 0 :=
  List.countP_eq_zero.mpr fun x hx hhangUp => by
    have hwork := h x hx
    rw [Exchange.isWork, hhangUp, Bool.not_true, Bool.and_false] at hwork
    cases hwork

/-- Whether an exchange is a call to connect that failed. -/
def Exchange.isFailedDial : Exchange τ → Bool
  | .connect _ _ _ (.error _) => true
  | _ => false

theorem Exchange.not_isFailedDial_of_isWork {x : Exchange τ} (h : x.isWork = true) :
    x.isFailedDial = false := by
  cases x with
  | connect => cases h
  | _ => rfl

/-- Without a failed call to connect the library could connect. -/
theorem not_unreachable {xs : List (Exchange τ)} (h : ∀ x ∈ xs, x.isFailedDial = false)
    (host : String) (port keepalive : Int) (f : Fault) :
    .connect host port keepalive (.error f) ∉ xs := fun hmem => by
  have hfailed := h _ hmem
  cases hfailed

/-- The signs of a session: those of its handshake, and those of the loop calls and pumps after
it. -/
def sessionSigns (opening work : List (Exchange τ)) : List Bool :=
  opening.flatMap Exchange.signs ++ work.flatMap Exchange.pumpSigns

/-- What becomes of a connection that the broker accepted in the exchanges `opening`. After the work
on it, which neither opens nor closes a connection, the library is told once to end the connection if
the session is up then, and not at all if it is down. So it is told once unless there was a sign of
the end after the last one that the broker accepts the connection. -/
def Closes (opening xs : List (Exchange τ)) : Prop :=
  ∃ work closing, xs = opening ++ (work ++ closing) ∧ true ∈ opening.flatMap Exchange.signs ∧
    (∀ x ∈ work, x.isWork = true) ∧
    hangUps xs = (if standing false (sessionSigns opening work) then 1 else 0) ∧
    ∀ earlier later, sessionSigns opening work = earlier ++ true :: later → false ∉ later →
      hangUps xs = 1

/-- The connection of a run with the exchanges `xs`, whose handshake was `opening` and ended as
`handshake` says, is given back: the library is told to end it at most once, never if it could not
connect, once if it could but the handshake failed, and else as the session stands. -/
structure Released (handshake : Except Stop Unit) (opening xs : List (Exchange τ)) (ended : Prop) :
    Prop where
  once : hangUps xs ≤ 1
  unreachable : ∀ host port keepalive f,
    .connect host port keepalive (.error f) ∈ xs → hangUps xs = 0
  rejected : ∀ host port keepalive f, handshake = .error (.fault f) →
    .connect host port keepalive (.ok ()) ∈ xs → hangUps xs = 1
  accepted : handshake = .ok () → ended → Closes opening xs

theorem Released.mono {handshake : Except Stop Unit} {opening xs : List (Exchange τ)}
    {ended ended' : Prop} (h : Released handshake opening xs ended) (himp : ended' → ended) :
    Released handshake opening xs ended' :=
  ⟨h.once, h.unreachable, h.rejected, fun hopen hended => h.accepted hopen (himp hended)⟩

/-! ## §2 The two places -/

/-- Once there is a sign, it does not matter how a connection stood before. -/
theorem standing_of_mem {signs : List Bool} (h : true ∈ signs) (up up' : Bool) :
    standing up signs = standing up' signs := by
  cases signs with
  | nil => cases h
  | cons sign rest => rfl

namespace Connection

variable {c : Connection τ} {up between down : Bool} {opening work closing loops : List (Exchange τ)}

/-- A call to connect that worked, and the loop calls after it. -/
theorem dialled_exchanges (host : String) (port keepalive : Int)
    (hloops : ∀ x ∈ loops, x.isLoop = true) :
    hangUps (.connect host port keepalive (.ok ()) :: loops) = 0 ∧
      ∀ x ∈ (.connect host port keepalive (.ok ()) :: loops : List (Exchange τ)),
        x.isFailedDial = false := by
  have hwork : ∀ x ∈ loops, x.isWork = true := fun x hx => Exchange.isWork_of_isLoop (hloops x hx)
  refine ⟨?_, List.forall_mem_cons.mpr ⟨rfl, fun x hx => ?_⟩⟩
  · exact (List.countP_cons_of_neg (by nofun)).trans (hangUps_work hwork)
  · exact Exchange.not_isFailedDial_of_isWork (hwork x hx)

/-- A call to disconnect, and the loop call after it. -/
theorem hungUp_exchanges (timeout : τ) (events : List NetworkEvent) (code : Int) :
    hangUps [.disconnect, .loop timeout events code] = 1 ∧
      ∀ x ∈ [.disconnect, .loop timeout events code], Exchange.isFailedDial x = false := by
  refine ⟨rfl, fun x hx => ?_⟩
  rcases List.mem_cons.mp hx with rfl | hx
  · rfl
  · rw [List.mem_singleton.mp hx]
    rfl

variable [Seconds τ]

/-- A connection that was not accepted is given back at once. -/
theorem Answer.released {stop : Stop} (h : Answer c up .connect (.error stop) opening down)
    (ended : Prop) : Released (.error stop) opening opening ended := by
  cases h with
  | unreachable =>
    refine ⟨Nat.zero_le _, fun _ _ _ _ _ => rfl, ?_, nofun⟩
    intro host port keepalive f _ hmem
    cases List.mem_singleton.mp hmem
  | @turnedAway _ e loops events code hloops =>
    obtain ⟨hnone, hdials⟩ := dialled_exchanges c.broker.host c.broker.port c.keepalive hloops
    obtain ⟨hlast, hends⟩ := hungUp_exchanges (Seconds.zero : τ) events code
    rw [← List.cons_append]
    have hone : hangUps ((.connect c.broker.host c.broker.port c.keepalive (.ok ()) :: loops) ++
        [.disconnect, .loop Seconds.zero events code]) = 1 := by
      rw [hangUps_append, hnone, hlast]
    have hreached := not_unreachable (List.forall_mem_append.mpr ⟨hdials, hends⟩)
    exact ⟨Nat.le_of_eq hone, fun _ _ _ _ hmem => absurd hmem (hreached _ _ _ _),
      fun _ _ _ _ _ _ => hone, nofun⟩
  | waiting hloops =>
    obtain ⟨hnone, hdials⟩ := dialled_exchanges c.broker.host c.broker.port c.keepalive hloops
    exact ⟨hnone ▸ Nat.zero_le _,
      fun _ _ _ _ hmem => absurd hmem (not_unreachable hdials _ _ _ _), nofun, nofun⟩

/-- A connection that was accepted is up if the last sign says so. -/
theorem Answer.accepted_up (h : Answer c up .connect (.ok ()) opening down) :
    down = standing up (opening.flatMap Exchange.signs) ∧ true ∈ opening.flatMap Exchange.signs ∧
      hangUps opening = 0 ∧ ∀ x ∈ opening, x.isFailedDial = false := by
  cases h with
  | accepted hloops hsign => exact ⟨rfl, hsign, dialled_exchanges _ _ _ hloops⟩

/-- After some work a connection that was accepted is up if the last sign of the session says so. -/
theorem Answer.session_up (h : Answer c up .connect (.ok ()) opening between)
    (work : List (Exchange τ)) :
    standing between (work.flatMap Exchange.pumpSigns) =
      standing false (sessionSigns opening work) := by
  obtain ⟨hbetween, hsign, -⟩ := h.accepted_up
  rw [sessionSigns, standing_append, hbetween, standing_of_mem hsign up false]

/-- A connection is closed once if it is up, and not at all if it is down. -/
theorem Answer.closes {outcome : Except Stop Unit}
    (h : Answer c up .disconnect outcome closing down) :
    hangUps closing = (if up then 1 else 0) ∧ ∀ x ∈ closing, x.isFailedDial = false := by
  cases h with
  | closed => exact hungUp_exchanges _ _ _
  | idle => exact ⟨rfl, List.forall_mem_nil _⟩

/-- A connection that was accepted is not given back as long as the work on it goes on. -/
theorem released_endless (hopening : Answer c up .connect (.ok ()) opening between)
    (hwork : ∀ x ∈ work, x.isWork = true) :
    Released (.ok ()) opening (opening ++ work) False := by
  obtain ⟨-, -, hopen, hdials⟩ := hopening.accepted_up
  have hreached := not_unreachable (List.forall_mem_append.mpr
    ⟨hdials, fun x hx => Exchange.not_isFailedDial_of_isWork (hwork x hx)⟩)
  refine ⟨?_, fun _ _ _ _ hmem => absurd hmem (hreached _ _ _ _), nofun, nofun⟩
  rw [hangUps_append, hopen, hangUps_work hwork]
  exact Nat.zero_le _

/-- A connection that was accepted is given back after the work on it. -/
theorem released_closed {outcome : Except Stop Unit} (ended : Prop)
    (hopening : Answer c up .connect (.ok ()) opening between)
    (hwork : ∀ x ∈ work, x.isWork = true)
    (hclosing : Answer c (standing between (work.flatMap Exchange.pumpSigns)) .disconnect outcome
      closing down) :
    Released (.ok ()) opening (opening ++ (work ++ closing)) ended := by
  obtain ⟨-, hsign, hopen, hdials⟩ := hopening.accepted_up
  obtain ⟨hend, hends⟩ := hclosing.closes
  have hcount : hangUps (opening ++ (work ++ closing)) =
      if standing false (sessionSigns opening work) then 1 else 0 := by
    rw [hangUps_append, hangUps_append, hopen, hangUps_work hwork, hend, Nat.zero_add,
      Nat.zero_add, hopening.session_up]
  have hreached := not_unreachable (List.forall_mem_append.mpr ⟨hdials, List.forall_mem_append.mpr
    ⟨fun x hx => Exchange.not_isFailedDial_of_isWork (hwork x hx), hends⟩⟩)
  refine ⟨?_, fun _ _ _ _ hmem => absurd hmem (hreached _ _ _ _), nofun, fun _ _ =>
    ⟨work, closing, rfl, hsign, hwork, hcount, ?_⟩⟩
  · rw [hcount]
    split
    · exact Nat.le_refl _
    · exact Nat.zero_le _
  · intro earlier later hsigns hclear
    rw [hcount, hsigns, standing_of_clear false earlier hclear]
    rfl

end Connection

/-! ## §3 Runs -/

namespace Client

/-- A run from `s` on a connection ended as `e` says, and the connection is given back. -/
def GivesBack [Seconds τ] {α : Type} (c : Connection τ) (wire : Wire τ σ) (fuel : Nat)
    (s : Traced (Note τ) (Client (Line σ) η))
    (e : Except Stop α × Traced (Note τ) (Client (Line σ) η)) : Prop :=
  ∃ notes, e.2.history = s.history ++ notes ∧
    Released ((c.session wire fuel).connect s.state.env).1.outcome (handshake c wire fuel s)
      (wire.exchanges s.state.env.env notes) (e.1 ≠ .error .outOfFuel)

variable [Seconds τ] {c : Connection τ} {wire : Wire τ σ} {fuel : Nat} {handler : Handler τ η}
  {heeds : Bool} {memory : Nat}

/-- An action on a session gives its connection back, if its body only works on it. -/
theorem session_released {α : Type} {body : Act τ (Line σ) η α}
    (hbody : ∀ t, t.state.phase = .connected → ∃ deals,
      Course (c.surroundings wire fuel handler heeds memory) t deals (Action.runFrom body t).2 ∧
        ∀ d ∈ deals, d.isWork = true)
    (s : Traced (Note τ) (Client (Line σ) η)) :
    GivesBack c wire fuel s
      (Action.runFrom (onSession (c.surroundings wire fuel handler heeds memory) body) s) := by
  have hvisit := (sessionEnd_run (w := c.surroundings wire fuel handler heeds memory) body s).visit
  generalize Action.runFrom (onSession (c.surroundings wire fuel handler heeds memory) body) s = e
    at hvisit ⊢
  obtain ⟨result, v⟩ := e
  dsimp only at hvisit
  cases hvisit with
  | @turnedAway notes stop t hopened hopen hanswer =>
    refine ⟨notes, hopened.history, ?_⟩
    rw [hopen, hopened.exchanges]
    exact hanswer.released _
  | @endless notes t u hopened hopen hanswer _ hconnected hrun =>
    obtain ⟨deals, hcourse, hdeals⟩ := hbody t hconnected
    obtain ⟨more, xs, hcarries, hdialogue⟩ := course_dialogue hcourse
    rw [hrun] at hcarries
    refine ⟨notes ++ more, (hopened.trans hcarries).history, ?_⟩
    rw [hopen, (hopened.trans hcarries).exchanges]
    exact (Connection.released_endless hanswer (hdialogue.work hdeals).2).mono
      fun hended => hended rfl
  | @closed notes last ys t u v outcome result hopened hopen hanswer _ hconnected hrun _ hclosed
      hclosing =>
    obtain ⟨deals, hcourse, hdeals⟩ := hbody t hconnected
    obtain ⟨more, xs, hcarries, hdialogue⟩ := course_dialogue hcourse
    obtain ⟨hup, hxs⟩ := hdialogue.work hdeals
    rw [hrun] at hcarries hup
    have hall := hopened.trans (hcarries.trans hclosed)
    refine ⟨_, hall.history, ?_⟩
    rw [hopen, hall.exchanges]
    rw [hup] at hclosing
    exact Connection.released_closed _ hanswer hxs hclosing

/-- What only logs after a run leaves the connection alone. -/
theorem GivesBack.then {α β : Type} {w : Surroundings τ (Line σ) η}
    {s : Traced (Note τ) (Client (Line σ) η)} {x : Act τ (Line σ) η α}
    {f : α → Act τ (Line σ) η β} (h : GivesBack c wire fuel s (Action.runFrom x s))
    (hf : ∀ a t, ∃ b record, Action.runFrom (f a) t = (.ok b, remarked w (.log record) t)) :
    GivesBack c wire fuel s (Action.runFrom (x >>= f) s) := by
  obtain ⟨notes, hhistory, hreleased⟩ := h
  rw [Action.runFrom_bind]
  generalize Action.runFrom x s = e at hhistory hreleased
  obtain ⟨outcome, t⟩ := e
  cases outcome with
  | error stop =>
    refine ⟨notes, hhistory, hreleased.mono fun hended hstop => hended ?_⟩
    cases hstop
    rfl
  | ok a =>
    obtain ⟨b, record, hrun⟩ := hf a t
    dsimp only at hhistory hreleased ⊢
    rw [hrun]
    refine ⟨notes ++ [⟨w.timer.now t.state.env, .log record⟩], ?_, ?_⟩
    · have hlogged : (remarked w (.log record) t).history =
          t.history ++ [⟨w.timer.now t.state.env, .log record⟩] := List.reverse_cons
      rw [hlogged, hhistory, List.append_assoc]
    · rw [Wire.exchanges_append]
      have hnone : wire.exchanges (wire.after s.state.env.env notes)
          [⟨w.timer.now t.state.env, .log record⟩] = [] := rfl
      rw [hnone, List.append_nil]
      exact hreleased.mono fun _ => nofun

omit [Seconds τ] in
theorem isWork_of_waits {d : Deal τ} (h : Publisher.Waits d) : d.isWork = true := by
  cases h <;> rfl

omit [Seconds τ] in
theorem isWork_of_asks {d : Deal τ} {r : Request τ} {phase : Phase} (h : d.Asks r phase)
    (hr : r.isWork = true) : d.isWork = true := by
  rw [Deal.isWork, h]
  exact hr

theorem isWork_of_acts {plan : Plan τ} {deals : List (Deal τ)} {phase : Phase}
    {result : Except Stop Unit} (h : Publisher.Acts plan memory deals phase result) :
    ∀ d ∈ deals, d.isWork = true := by
  cases h with
  | unfit => exact List.forall_mem_nil _
  | active hdeals =>
    exact fun d hd => (hdeals d hd).elim isWork_of_waits fun hasks => isWork_of_asks hasks rfl

omit [Seconds τ] in
theorem isWork_of_serves {settings : ClientSettings} {timeout : τ} {deals : List (Deal τ)}
    {phase : Phase} {result : Except Stop Unit}
    (h : Subscriber.Acts settings timeout deals phase result) : ∀ d ∈ deals, d.isWork = true := by
  cases h with
  | refused hasks => exact List.forall_mem_singleton.mpr (isWork_of_asks hasks rfl)
  | active hasks _ hpumps =>
    exact List.forall_mem_cons.mpr
      ⟨isWork_of_asks hasks rfl, fun d hd => isWork_of_asks (hpumps d hd) rfl⟩

/-- Whatever a client does, its connection is given back: for a publisher and for a subscriber, on
any network. -/
theorem clients_released (s : Traced (Note τ) (Client (Line σ) η)) :
    (∀ plan tuning loopFuel, GivesBack c wire fuel s (Action.runFrom
      (Publisher.run (c.surroundings wire fuel handler heeds memory) plan tuning loopFuel) s)) ∧
    ∀ settings timeout loopFuel, GivesBack c wire fuel s (Action.runFrom (Subscriber.run
      (c.surroundings wire fuel handler heeds memory) settings timeout loopFuel) s) := by
  constructor
  · intro plan tuning loopFuel
    refine (session_released (fun t hconnected => ?_) s).then fun report t => ⟨report, _, rfl⟩
    obtain ⟨deals, hdeals⟩ := Publisher.publishAll_published
      (w := c.surroundings wire fuel handler heeds memory) plan tuning loopFuel t
    obtain ⟨hcourse, hacts⟩ := hdeals.acts hconnected
    exact ⟨deals, hcourse, isWork_of_acts hacts⟩
  · intro settings timeout loopFuel
    rw [Subscriber.run_eq]
    refine (session_released (fun t hconnected => ?_) s).then
      fun _ t => ⟨t.state.received, _, rfl⟩
    obtain ⟨deals, hcourse, hacts⟩ := Subscriber.serve_acts
      (w := c.surroundings wire fuel handler heeds memory) settings timeout loopFuel hconnected
    exact ⟨deals, hcourse, isWork_of_serves hacts⟩

end Client

end BrokerLoad
