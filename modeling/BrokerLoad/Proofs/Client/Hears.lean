import BrokerLoad.Proofs.Client.Drain
import BrokerLoad.Proofs.Client.Release
import BrokerLoad.Rehearsal.Network

/-!
# What a subscriber hears

Messages and requests to stop reach a subscriber in every loop call: those of the handshake, of the
wait for the subscription, of the drain, and of the end. Here the exchanges of a run are cut into
these four parts, and the count, the handler, the length of the drain and the end of the run are
read off them.

## Main definitions

* `Subscriber.Attends`: the exchanges of a run, and how it ends.
* `Subscriber.Hears`: a subscriber missed nothing in a run.

## Main statements

* `Subscriber.session_attends`: the session of a subscriber, part by part.
* `Subscriber.session_done`: a session is done when the subscriber was asked to stop.
* `Subscriber.run_hears`: a subscriber misses no message and no request to stop.
-/

namespace BrokerLoad

variable {τ σ η : Type}

namespace Subscriber

variable [Seconds τ] {c : Connection τ} {wire : Wire τ σ} {fuel : Nat} {handler : Handler τ η}
  {heeds : Bool} {memory : Nat}

/-! ## §1 The parts of a run -/

section Session

variable (c wire fuel heeds) (settings : ClientSettings) (s : Traced (Note τ) (Client (Line σ) η))

/-- The reply to a subscription, which is asked for after the handshake. -/
def grantOf : Reply τ :=
  ((c.session wire fuel).subscribe settings.topic settings.qos
    ((c.session wire fuel).connect s.state.env).2).1

/-- The exchanges of a subscription. -/
def granting : List (Exchange τ) :=
  wire.exchanges ((c.session wire fuel).connect s.state.env).2.env
    (grantOf c wire fuel settings s).notes

/-- The network after the subscription. -/
def afterGrant : σ :=
  ((c.session wire fuel).subscribe settings.topic settings.qos
    ((c.session wire fuel).connect s.state.env).2).2.env

/-- The handshake and the subscription of a subscriber go well, and it is asked to stop in them or
in the next `k` pumps, none of which fails. -/
structure Summoned (timeout : τ) (k : Nat) : Prop where
  opens : ((c.session wire fuel).connect s.state.env).1.outcome = .ok ()
  grants : (grantOf c wire fuel settings s).outcome = .ok ()
  asked : Asked wire timeout heeds (stoppingAfter heeds s.state.stopping
    (Client.handshake c wire fuel s ++ granting c wire fuel settings s))
    (afterGrant c wire fuel settings s) k

end Session

/-- The exchanges of a run after the handshake and the work on the session: the session is closed as
it stands then, unless the work goes on for ever. -/
structure Leaves (c : Connection τ) (opening work closing : List (Exchange τ))
    (result : Except Stop Unit) : Prop where
  left : result ≠ .error .outOfFuel → ∃ down, Connection.Answer c
    (standing false (sessionSigns opening work)) .disconnect (.ok ()) closing down
  endless : result = .error .outOfFuel → closing = []

/-- The exchanges of a subscriber's run with at most `n` pumps, and how it ends, where `hello` and
`grant` are the ends of the handshake and of the subscription. Each part is made only if the one
before it went well, but a session that was opened is left in any case. -/
inductive Attends (c : Connection τ) (timeout : τ) (heeds : Bool) (n : Nat) (stopping : Bool)
    (hello grant : Except Stop Unit) (opening granting : List (Exchange τ)) :
    List (Exchange τ) → Except Stop Unit → Prop
  | unopened {stop} : hello = .error stop →
    Attends c timeout heeds n stopping hello grant opening granting opening (.error stop)
  | refused {closing stop} : hello = .ok () → true ∈ opening.flatMap Exchange.signs →
    grant = .error stop → Leaves c opening granting closing (.error stop) →
    Attends c timeout heeds n stopping hello grant opening granting
      (opening ++ (granting ++ closing)) (.error stop)
  | drained {pumps closing result} : hello = .ok () → true ∈ opening.flatMap Exchange.signs →
    grant = .ok () →
    Drained timeout heeds n (stoppingAfter heeds stopping (opening ++ granting)) pumps result →
    Leaves c opening (granting ++ pumps) closing result →
    Attends c timeout heeds n stopping hello grant opening granting
      (opening ++ (granting ++ (pumps ++ closing))) result

/-- A run of a subscriber on a connection. The client heard what the exchanges brought; these are
those of a subscriber's run, and they order a subscription at most. The run returns if nothing fails
and the subscriber is asked to stop before it has no fuel left, and then it gives the number of
messages received. -/
structure Hears (c : Connection τ) (wire : Wire τ σ) (fuel : Nat) (handler : Handler τ η)
    (heeds : Bool) (settings : ClientSettings) (timeout : τ) (n : Nat)
    (s : Traced (Note τ) (Client (Line σ) η)) (xs : List (Exchange τ))
    (e : Except Stop Nat × Traced (Note τ) (Client (Line σ) η)) : Prop where
  heard : Client.Heard handler heeds xs s.state e.2.state
  attends : Attends c timeout heeds n s.state.stopping
    ((c.session wire fuel).connect s.state.env).1.outcome (grantOf c wire fuel settings s).outcome
    (Client.handshake c wire fuel s) (granting c wire fuel settings s) xs (Client.ending e.1)
  subscribes : ∃ code id loops,
    granting c wire fuel settings s = .subscribe settings.topic settings.qos code id :: loops ∧
      (∀ x ∈ loops, x.isLoop = true) ∧
      (((c.session wire fuel).connect s.state.env).1.outcome = .ok () →
        ordersOf xs = [.subscribe settings.topic settings.qos code id]) ∧
      (((c.session wire fuel).connect s.state.env).1.outcome ≠ .ok () → ordersOf xs = [])
  done : ∀ k < n, Summoned c wire fuel heeds settings s timeout k → ∃ r, e.1 = .ok r
  returns : ∀ r, e.1 = .ok r → r = e.2.state.received

/-! ## §2 On an open session -/

/-- A subscriber on an open session subscribes, and drains if that goes well. -/
inductive Served (timeout : τ) (heeds : Bool) (n : Nat) (stopping : Bool)
    (grant : Except Stop Unit) : List (Exchange τ) → Except Stop Unit → Prop
  | refused {stop} : grant = .error stop → Served timeout heeds n stopping grant [] (.error stop)
  | drained {pumps result} : grant = .ok () → Drained timeout heeds n stopping pumps result →
    Served timeout heeds n stopping grant pumps result

variable (c wire fuel handler heeds) in
/-- What a subscriber does on an open session, with its exchanges. -/
theorem serve_served (settings : ClientSettings) (timeout : τ) (n : Nat)
    (t : Traced (Note τ) (Client (Line σ) η)) :
    let reply := ((c.session wire fuel).subscribe settings.topic settings.qos t.state.env).1
    let ordering := wire.exchanges t.state.env.env reply.notes
    let e := Action.runFrom
      (serve (c.surroundings wire fuel handler heeds memory) settings timeout n) t
    ∃ notes pumps, Client.Carries c wire handler heeds t notes (ordering ++ pumps) e.2 ∧
      Served timeout heeds n (stoppingAfter heeds t.state.stopping ordering) reply.outcome pumps
        e.1 ∧
      e.2.state.env.link.connected = standing t.state.env.link.connected
        ((ordering ++ pumps).flatMap Exchange.pumpSigns) := by
  intro reply ordering e
  obtain ⟨notes, hcarries, hanswer⟩ := Client.Carries.asked c wire fuel handler heeds t
    (.subscribe settings.topic settings.qos)
  have houtcome : (Client.requestDeal (c.surroundings wire fuel handler heeds memory)
      (.subscribe settings.topic settings.qos) t).outcome = reply.outcome := rfl
  obtain ⟨hup, -⟩ := hanswer.work rfl
  replace hcarries : Client.Carries c wire handler heeds t notes ordering
    (Client.asked _ (.subscribe settings.topic settings.qos) t) := hcarries
  have he : e = _ := serve_eq settings timeout n t
  rw [houtcome] at he
  rw [he]
  cases hgrant : reply.outcome with
  | error stop =>
    refine ⟨notes, [], ?_, .refused rfl, ?_⟩
    · rw [List.append_nil]
      exact hcarries
    · rw [List.append_nil]
      exact hup
  | ok _ =>
    obtain ⟨deals, hdeals⟩ := drain_drains (w := c.surroundings wire fuel handler heeds memory)
      timeout n (granted (c.surroundings wire fuel handler heeds memory) settings t)
    obtain ⟨more, pumps, hmore, hdrained, hups⟩ := hdeals.drained
    have hgranted := (hcarries.trans (.remarked (w := c.surroundings wire fuel handler heeds memory)
      ⟨.info, logger, "Subscribed to " ++ settings.topic ++ " on " ++ settings.broker.text⟩)).enter
        .active
    rw [List.append_nil] at hgranted
    refine ⟨_, pumps, hgranted.trans hmore, .drained rfl ?_, ?_⟩
    · have hstopping : stoppingAfter heeds t.state.stopping ordering =
          (granted (c.surroundings wire fuel handler heeds memory) settings t).state.stopping :=
        hgranted.stopping.symm
      rw [hstopping]
      exact hdrained
    · have hbetween : (granted (c.surroundings wire fuel handler heeds memory) settings
          t).state.env.link.connected =
            standing t.state.env.link.connected (ordering.flatMap Exchange.pumpSigns) := hup
      rw [List.flatMap_append, standing_append, ← hbetween]
      exact hups

/-- On an open session a subscriber is done if its subscription is granted and it is asked to
stop. -/
theorem serve_done {settings : ClientSettings} {timeout : τ} {n k : Nat}
    {t : Traced (Note τ) (Client (Line σ) η)} (hk : k < n)
    (hgrant : ((c.session wire fuel).subscribe settings.topic settings.qos t.state.env).1.outcome =
      .ok ())
    (hasked : Asked wire timeout heeds
      (stoppingAfter heeds t.state.stopping (wire.exchanges t.state.env.env
        ((c.session wire fuel).subscribe settings.topic settings.qos t.state.env).1.notes))
      ((c.session wire fuel).subscribe settings.topic settings.qos t.state.env).2.env k) :
    (Action.runFrom
      (serve (c.surroundings wire fuel handler heeds memory) settings timeout n) t).1 = .ok () := by
  let w := c.surroundings wire fuel handler heeds memory
  obtain ⟨notes, hcarries, -⟩ := Client.Carries.asked c wire fuel handler heeds t
    (.subscribe settings.topic settings.qos)
  have houtcome : (Client.requestDeal w (.subscribe settings.topic settings.qos) t).outcome =
      .ok () := hgrant
  obtain ⟨deals, hdeals⟩ := drain_drains (w := w) timeout n (granted w settings t)
  rw [serve_eq, houtcome]
  have hstopping : (granted w settings t).state.stopping = stoppingAfter heeds t.state.stopping
      (wire.exchanges t.state.env.env
        ((c.session wire fuel).subscribe settings.topic settings.qos t.state.env).1.notes) :=
    hcarries.stopping
  have henv : (granted w settings t).state.env =
      ((c.session wire fuel).subscribe settings.topic settings.qos t.state.env).2 :=
    Client.asked_env _ _
  refine hdeals.done hk ?_
  rw [hstopping, henv]
  exact hasked

/-! ## §3 What a run orders -/

/-- The handshake orders nothing. -/
theorem ordersOf_handshake (s : Traced (Note τ) (Client (Line σ) η)) :
    ordersOf (Client.handshake c wire fuel s) = [] := by
  obtain ⟨xs, hanswer, hnoted⟩ :=
    Connection.request_replies (c := c) (w := wire) fuel .connect s.state.env
  have hxs : Client.handshake c wire fuel s = xs := hnoted.exchanges
  rw [hxs]
  exact hanswer.connect_orders

variable (c wire fuel) in
theorem granting_eq (settings : ClientSettings) (s : Traced (Note τ) (Client (Line σ) η)) :
    ∃ code id loops,
      granting c wire fuel settings s = .subscribe settings.topic settings.qos code id :: loops ∧
        ∀ x ∈ loops, x.isLoop = true := by
  obtain ⟨xs, hanswer, hnoted⟩ := Connection.request_replies (c := c) (w := wire) fuel
    (.subscribe settings.topic settings.qos) ((c.session wire fuel).connect s.state.env).2
  have hxs : granting c wire fuel settings s = xs := hnoted.exchanges
  rw [hxs]
  exact hanswer.subscribe_orders

theorem Leaves.orders {opening work closing : List (Exchange τ)} {result : Except Stop Unit}
    (h : Leaves c opening work closing result) : ordersOf closing = [] := by
  by_cases hend : result = .error .outOfFuel
  · rw [h.endless hend]
    rfl
  · obtain ⟨down, hanswer⟩ := h.left hend
    exact hanswer.disconnect_orders.1

omit [Seconds τ] in
theorem Drained.orders {timeout : τ} {stopping : Bool} {n : Nat} {pumps : List (Exchange τ)}
    {result : Except Stop Unit} (h : Drained timeout heeds n stopping pumps result) :
    ordersOf pumps = [] :=
  ordersOf_loops fun x hx => by
    obtain ⟨events, code, rfl⟩ := h.onlyPumps x hx
    rfl

/-- What a run orders is what it orders with its subscription. -/
theorem Attends.orders {timeout : τ} {n : Nat} {stopping : Bool} {hello grant : Except Stop Unit}
    {opening granting xs : List (Exchange τ)} {result : Except Stop Unit}
    (h : Attends c timeout heeds n stopping hello grant opening granting xs result)
    (hopening : ordersOf opening = []) :
    (hello = .ok () → ordersOf xs = ordersOf granting) ∧
      (hello ≠ .ok () → ordersOf xs = []) := by
  cases h with
  | unopened hstop =>
    refine ⟨fun hok => ?_, fun _ => hopening⟩
    rw [hok] at hstop
    cases hstop
  | refused hok _ _ hleaves =>
    refine ⟨fun _ => ?_, fun hnot => absurd hok hnot⟩
    rw [ordersOf_append, ordersOf_append, hopening, hleaves.orders, List.nil_append,
      List.append_nil]
  | drained hok _ _ hdrained hleaves =>
    refine ⟨fun _ => ?_, fun hnot => absurd hok hnot⟩
    rw [ordersOf_append, ordersOf_append, ordersOf_append, hopening, hdrained.orders,
      hleaves.orders, List.nil_append, List.append_nil, List.append_nil]

/-! ## §4 Runs -/

/-- The work on a session that was opened, and the way it is left. -/
theorem Served.attends {timeout : τ} {n : Nat} {stopping : Bool} {hello grant : Except Stop Unit}
    {opening granting pumps closing : List (Exchange τ)} {result : Except Stop Unit}
    (hserved : Served timeout heeds n (stoppingAfter heeds stopping (opening ++ granting)) grant
      pumps result)
    (hopen : hello = .ok ()) (hsign : true ∈ opening.flatMap Exchange.signs)
    (hleaves : Leaves c opening (granting ++ pumps) closing result) :
    Attends c timeout heeds n stopping hello grant opening granting
      (opening ++ (granting ++ (pumps ++ closing))) result := by
  cases hserved with
  | refused hgrant =>
    rw [List.append_nil] at hleaves
    exact .refused hopen hsign hgrant hleaves
  | drained hgrant hdrained => exact .drained hopen hsign hgrant hdrained hleaves

/-- What a subscriber does after its handshake, with its exchanges. -/
theorem serve_after {settings : ClientSettings} {timeout : τ} {n : Nat} {notes : List (Note τ)}
    {s t u : Traced (Note τ) (Client (Line σ) η)} {result : Except Stop Unit}
    (hopened : Client.Carries c wire handler heeds s notes (Client.handshake c wire fuel s) t)
    (hanswer : Connection.Answer c s.state.env.link.connected .connect (.ok ())
      (Client.handshake c wire fuel s) t.state.env.link.connected)
    (henv : t.state.env = ((c.session wire fuel).connect s.state.env).2)
    (hrun : Action.runFrom
      (serve (c.surroundings wire fuel handler heeds memory) settings timeout n) t = (result, u)) :
    ∃ more pumps, Client.Carries c wire handler heeds t more
        (granting c wire fuel settings s ++ pumps) u ∧
      Served timeout heeds n (stoppingAfter heeds s.state.stopping
        (Client.handshake c wire fuel s ++ granting c wire fuel settings s))
        (grantOf c wire fuel settings s).outcome pumps result ∧
      u.state.env.link.connected = standing false (sessionSigns (Client.handshake c wire fuel s)
        (granting c wire fuel settings s ++ pumps)) := by
  obtain ⟨more, pumps, hmore, hserved, hup⟩ := serve_served c wire fuel handler heeds settings
    timeout n t
  have hstopping : t.state.stopping =
      stoppingAfter heeds s.state.stopping (Client.handshake c wire fuel s) := hopened.stopping
  rw [hrun] at hmore hserved hup
  rw [hanswer.session_up] at hup
  rw [hstopping, ← stoppingAfter_append] at hserved
  rw [henv] at hmore hserved hup
  exact ⟨more, pumps, hmore, hserved, hup⟩

variable (c wire fuel handler heeds) in
/-- A subscriber's session on a connection. -/
theorem session_attends (settings : ClientSettings) (timeout : τ) (n : Nat)
    (s : Traced (Note τ) (Client (Line σ) η)) :
    let e := Action.runFrom (Client.onSession (c.surroundings wire fuel handler heeds memory)
      (serve (c.surroundings wire fuel handler heeds memory) settings timeout n)) s
    ∃ notes xs, Client.Carries c wire handler heeds s notes xs e.2 ∧
      Attends c timeout heeds n s.state.stopping
        ((c.session wire fuel).connect s.state.env).1.outcome
        (grantOf c wire fuel settings s).outcome (Client.handshake c wire fuel s)
        (granting c wire fuel settings s) xs e.1 := by
  intro e
  have hvisit := (Client.sessionEnd_run (w := c.surroundings wire fuel handler heeds memory)
    (serve (c.surroundings wire fuel handler heeds memory) settings timeout n) s).visit
  change Client.Visit c wire fuel handler heeds _ s e.1 e.2 at hvisit
  obtain ⟨result, v⟩ := e
  cases hvisit with
  | turnedAway hopened hopen _ => exact ⟨_, _, hopened, .unopened hopen⟩
  | @endless notes t u hopened hopen hanswer henv _ hrun =>
    obtain ⟨more, pumps, hmore, hserved, -⟩ := serve_after hopened hanswer henv hrun
    have hleaves : Leaves c (Client.handshake c wire fuel s)
        (granting c wire fuel settings s ++ pumps) [] (.error .outOfFuel) :=
      ⟨fun hended => absurd rfl hended, fun _ => rfl⟩
    have hattends := hserved.attends hopen hanswer.accepted_up.2.1 hleaves
    rw [List.append_nil] at hattends
    exact ⟨_, _, hopened.trans hmore, hattends⟩
  | @closed notes last ys t u v outcome result hopened hopen hanswer henv _ hrun hended hclosed
      hclosing =>
    obtain ⟨more, pumps, hmore, hserved, hup⟩ := serve_after hopened hanswer henv hrun
    obtain ⟨-, rfl⟩ := hclosing.disconnect_orders
    rw [hup] at hclosing
    have hattends := hserved.attends hopen hanswer.accepted_up.2.1
      ⟨fun _ => ⟨_, hclosing⟩, fun hendless => absurd hendless hended⟩
    have hall := hopened.trans (hmore.trans hclosed)
    rw [List.append_assoc] at hall
    exact ⟨_, _, hall, hattends⟩

/-- The session of a subscriber is done if it is opened, the subscription is granted, and the
subscriber is asked to stop. -/
theorem session_done {settings : ClientSettings} {timeout : τ} {n k : Nat}
    {s : Traced (Note τ) (Client (Line σ) η)} (hk : k < n)
    (h : Summoned c wire fuel heeds settings s timeout k) :
    (Action.runFrom (Client.onSession (c.surroundings wire fuel handler heeds memory)
      (serve (c.surroundings wire fuel handler heeds memory) settings timeout n)) s).1 = .ok () := by
  have hvisit := (Client.sessionEnd_run (w := c.surroundings wire fuel handler heeds memory)
    (serve (c.surroundings wire fuel handler heeds memory) settings timeout n) s).visit
  have hserve : ∀ {notes t}, Client.Carries c wire handler heeds s notes
      (Client.handshake c wire fuel s) t →
      t.state.env = ((c.session wire fuel).connect s.state.env).2 →
      (Action.runFrom
        (serve (c.surroundings wire fuel handler heeds memory) settings timeout n) t).1 = .ok () := by
    intro notes t hopened henv
    have hstopping : t.state.stopping =
        stoppingAfter heeds s.state.stopping (Client.handshake c wire fuel s) := hopened.stopping
    apply serve_done hk
    · rw [henv]
      exact h.grants
    · rw [hstopping, henv, ← stoppingAfter_append]
      exact h.asked
  generalize Action.runFrom (Client.onSession (c.surroundings wire fuel handler heeds memory)
    (serve (c.surroundings wire fuel handler heeds memory) settings timeout n)) s = e at hvisit ⊢
  obtain ⟨result, v⟩ := e
  cases hvisit with
  | turnedAway _ hrefused _ =>
    rw [h.opens] at hrefused
    cases hrefused
  | endless hopened _ _ henv _ hrun =>
    have hdone := hserve hopened henv
    rw [hrun] at hdone
    cases hdone
  | closed hopened _ _ henv _ hrun _ _ hclosing =>
    have hdone := hserve hopened henv
    rw [hrun] at hdone
    obtain ⟨-, rfl⟩ := hclosing.disconnect_orders
    exact hdone

omit [Seconds τ] in
/-- After its session a subscriber logs and returns how many messages it received. -/
theorem run_run (w : Surroundings τ σ η) (settings : ClientSettings) (timeout : τ) (n : Nat)
    (s : Traced (Note τ) (Client σ η)) :
    Action.runFrom (run w settings timeout n) s =
      match Action.runFrom (Client.onSession w (serve w settings timeout n)) s with
      | (.error stop, t) => (.error stop, t)
      | (.ok _, t) =>
        (.ok t.state.received, Client.remarked w (.log ⟨.info, logger,
          "Stopped after receiving " ++ toString t.state.received ++ " messages"⟩) t) := by
  rw [run_eq, Action.runFrom_bind]
  split
  · next h => rw [h]; rfl
  · next h => rw [h]

/-- A subscriber misses no message and no request to stop, wherever in a run they come. -/
theorem run_hears (settings : ClientSettings) (timeout : τ) (n : Nat)
    (s : Traced (Note τ) (Client (Line σ) η)) (hdelivers : c.delivers = true) :
    let e := Action.runFrom
      (run (c.surroundings wire fuel handler heeds memory) settings timeout n) s
    ∃ notes, e.2.history = s.history ++ notes ∧
      Hears c wire fuel handler heeds settings timeout n s (wire.exchanges s.state.env.env notes)
        e := by
  obtain ⟨notes, xs, hcarries, hattends⟩ := session_attends c wire fuel handler heeds
    settings timeout n s
  obtain ⟨code, id, loops, hgranting, hloops⟩ :=
    granting_eq c wire fuel settings s
  obtain ⟨hordered, hunordered⟩ := hattends.orders (ordersOf_handshake s)
  have horders : ordersOf (granting c wire fuel settings s) =
      [.subscribe settings.topic settings.qos code id] := by
    rw [hgranting]
    exact congrArg (List.cons _) (ordersOf_loops hloops)
  rw [horders] at hordered
  have hsubscribes := And.intro hgranting (And.intro hloops (And.intro hordered hunordered))
  have hdone : ∀ k < n, Summoned c wire fuel heeds settings s timeout k →
      (Action.runFrom (Client.onSession (c.surroundings wire fuel handler heeds memory)
        (serve (c.surroundings wire fuel handler heeds memory) settings timeout n)) s).1 = .ok () :=
    fun k hk hsummoned => session_done hk hsummoned
  rw [run_run]
  generalize Action.runFrom (Client.onSession (c.surroundings wire fuel handler heeds memory)
    (serve (c.surroundings wire fuel handler heeds memory) settings timeout n)) s = e
    at hcarries hattends hdone
  obtain ⟨result, t⟩ := e
  dsimp only at hcarries hattends
  cases result with
  | error stop =>
    refine ⟨notes, hcarries.history, ?_⟩
    rw [hcarries.exchanges]
    refine ⟨hcarries.heard hdelivers, hattends, ⟨_, _, _, hsubscribes⟩, fun k hk hsummoned => ?_,
      nofun⟩
    cases hdone k hk hsummoned
  | ok _ =>
    have hlogged := hcarries.trans (.remarked (w := c.surroundings wire fuel handler heeds memory)
      ⟨.info, logger, "Stopped after receiving " ++ toString t.state.received ++ " messages"⟩)
    rw [List.append_nil] at hlogged
    refine ⟨_, hlogged.history, ?_⟩
    rw [hlogged.exchanges]
    refine ⟨hlogged.heard hdelivers, hattends, ⟨_, _, _, hsubscribes⟩, fun _ _ _ => ⟨_, rfl⟩,
      fun r hr => ?_⟩
    cases hr
    rfl

/-- A network on which a message comes in every loop call: in the one that accepts the connection,
in the one that grants the subscription, in two pumps, the second of which brings a request to
terminate, too, and in the one that ends the connection. -/
def chatty : NetworkRehearsal Rat where
  script :=
    { loops :=
        [{ events := [.answered ⟨"Success", false⟩, .message ⟨"hello", []⟩] },
          { events := [.message ⟨"early", []⟩, .granted 1 [⟨"Granted QoS 1", false⟩]] },
          { events := [.message ⟨"first", []⟩] },
          { events := [.signal 15, .message ⟨"second", []⟩] },
          { events := [.message ⟨"last", []⟩] }] }
  now := 0

/-- The network as scripted, with exact times. -/
def chattyWire : Wire Rat (NetworkRehearsal Rat) :=
  ⟨NetworkRehearsal.network, NetworkRehearsal.timer⟩

/-- A connection to a broker on this host. -/
def listening : Connection Rat where
  broker := { host := "localhost" }
  client := "sub_1"
  connectTimeout := 10

/-- Keeps the topics of messages. -/
def keepTopics : Handler Rat (List String) := ⟨fun _ m topics => topics ++ [m.topic]⟩

/-- A subscriber that has not run yet. -/
def newcomer : Traced (Note Rat) (Client (Line (NetworkRehearsal Rat)) (List String)) where
  state := { env := { env := chatty }, kept := [] }

/-- The five messages are heard, and there are two pumps. -/
theorem chatty_run_hears :
    listening.delivers = true ∧
      (let w := listening.surroundings chattyWire 9 keepTopics true Plan.standardMemory
      let e := Action.runFrom (run w Client.everything (1 / 10) 9) newcomer
      (∃ notes, e.2.history = newcomer.history ++ notes ∧
        Hears listening chattyWire 9 keepTopics true Client.everything (1 / 10) 9 newcomer
          (chattyWire.exchanges newcomer.state.env.env notes) e) ∧
      (e.1.toOption, e.2.state.kept, e.2.state.env.env.looped) =
        (some 5, ["hello", "early", "first", "second", "last"], 5)) :=
  ⟨rfl, run_hears Client.everything (1 / 10) 9 newcomer rfl, by decide +kernel⟩

end Subscriber

end BrokerLoad
