import BrokerLoad.Proofs.Client.Dialogue
import BrokerLoad.Proofs.Client.Loops

/-!
# The drain of a subscriber

What a client hears in a loop call is not lost: a message is counted and handled, and a request to
stop is remembered. So a drain makes no pump more than were made when the subscriber was asked to
stop, and it ends then, if no pump failed before.

## Main definitions

* `Client.Heard`: a client has taken in what some exchanges brought.
* `Subscriber.Drained`: the pumps of a drain, and how it ends.
* `Subscriber.pumpsFrom`: the next pumps on a network.

## Main statements

* `Subscriber.Drains.drained`: a drain pumps until the subscriber was asked to stop.
* `Subscriber.Drains.done`: a drain is done when the subscriber was asked to stop.
-/

namespace BrokerLoad

variable {τ σ η : Type}

/-! ## §1 What a client heard -/

/-- Whether a client is stopping after some exchanges. -/
def stoppingAfter (heeds stopping : Bool) (xs : List (Exchange τ)) : Bool :=
  stopping || heeds && xs.any Exchange.stops

theorem stoppingAfter_nil (heeds stopping : Bool) :
    stoppingAfter heeds stopping ([] : List (Exchange τ)) = stopping := by
  rw [stoppingAfter, List.any_nil, Bool.and_false, Bool.or_false]

theorem stoppingAfter_append (heeds stopping : Bool) (xs ys : List (Exchange τ)) :
    stoppingAfter heeds stopping (xs ++ ys) =
      stoppingAfter heeds (stoppingAfter heeds stopping xs) ys := by
  rw [stoppingAfter, stoppingAfter, stoppingAfter, List.any_append, Bool.and_or_distrib_left,
    Bool.or_assoc]

/-- The exchanges `xs` changed a client from `before` to `after`: every message was counted and
handled once, in the order in which they were delivered, and a request to stop is remembered. -/
structure Client.Heard (handler : Handler τ η) (heeds : Bool) (xs : List (Exchange τ))
    (before after : Client (Line σ) η) : Prop where
  handled : ∃ messages, messages.map Prod.snd = xs.flatMap Exchange.messages ∧
    after.kept = handler.acceptAll before.kept messages
  counted : after.received = before.received + (xs.flatMap Exchange.messages).length
  stopping : after.stopping = stoppingAfter heeds before.stopping xs

/-- What a client takes from exchanges, it heard, if the connection passes messages on. -/
theorem Client.Carries.heard {c : Connection τ} {wire : Wire τ σ} {handler : Handler τ η}
    {heeds : Bool} {s t : Traced (Note τ) (Client (Line σ) η)} {notes : List (Note τ)}
    {xs : List (Exchange τ)} (h : Client.Carries c wire handler heeds s notes xs t)
    (hdelivers : c.delivers = true) : Client.Heard handler heeds xs s.state t.state := by
  have hmessages : (messagesOf notes).map Prod.snd = xs.flatMap Exchange.messages := by
    rw [h.messages, Connection.passedOn, if_pos hdelivers, List.filterMap_flatMap]
    rfl
  refine ⟨⟨_, hmessages, h.kept⟩, ?_, h.stopping⟩
  rw [h.received, ← hmessages, List.length_map]

/-- Exchanges that are a publish or a subscribe. -/
def Exchange.isOrder : Exchange τ → Bool
  | .publish .. | .subscribe .. => true
  | _ => false

theorem Exchange.not_isOrder_of_isLoop {x : Exchange τ} (h : x.isLoop = true) :
    x.isOrder = false := by
  cases x with
  | loop => rfl
  | _ => cases h

/-- What some exchanges order of the broker. -/
def ordersOf (xs : List (Exchange τ)) : List (Exchange τ) := xs.filter Exchange.isOrder

theorem ordersOf_append (xs ys : List (Exchange τ)) :
    ordersOf (xs ++ ys) = ordersOf xs ++ ordersOf ys := List.filter_append xs ys

theorem ordersOf_eq_nil {xs : List (Exchange τ)} (h : ∀ x ∈ xs, x.isOrder = false) :
    ordersOf xs = [] := List.filter_eq_nil_iff.mpr fun x hx => by rw [h x hx]; nofun

theorem ordersOf_loops {loops : List (Exchange τ)} (h : ∀ x ∈ loops, x.isLoop = true) :
    ordersOf loops = [] := ordersOf_eq_nil fun x hx => Exchange.not_isOrder_of_isLoop (h x hx)

/-- A call to connect, and the loop calls after it, order nothing. -/
theorem ordersOf_dialled {host : String} {port keepalive : Int} {outcome : Except Fault Unit}
    {loops : List (Exchange τ)} (h : ∀ x ∈ loops, x.isLoop = true) :
    ordersOf (.connect host port keepalive outcome :: loops) = [] := by
  have hdial : ordersOf [(.connect host port keepalive outcome : Exchange τ)] = [] := rfl
  rw [← List.singleton_append, ordersOf_append, hdial, ordersOf_loops h]
  rfl

namespace Connection

variable [Seconds τ] {c : Connection τ} {up down : Bool} {xs : List (Exchange τ)}
  {outcome : Except Stop Unit}

/-- The handshake orders nothing. -/
theorem Answer.connect_orders (h : Answer c up .connect outcome xs down) : ordersOf xs = [] := by
  cases h with
  | unreachable => rfl
  | accepted hloops _ => exact ordersOf_dialled hloops
  | waiting hloops => exact ordersOf_dialled hloops
  | turnedAway hloops =>
    rw [← List.cons_append, ordersOf_append, ordersOf_dialled hloops]
    rfl

/-- The end of a connection orders nothing, and does not fail. -/
theorem Answer.disconnect_orders (h : Answer c up .disconnect outcome xs down) :
    ordersOf xs = [] ∧ outcome = .ok () := by
  cases h with
  | closed => exact ⟨rfl, rfl⟩
  | idle => exact ⟨rfl, rfl⟩

/-- A subscription is ordered at once, and then waited for. -/
theorem Answer.subscribe_orders {topic : String} {qos : Int}
    (h : Answer c up (.subscribe topic qos) outcome xs down) :
    ∃ code id loops, xs = .subscribe topic qos code id :: loops ∧
      ∀ x ∈ loops, x.isLoop = true := by
  cases h with
  | subscribed hloops => exact ⟨_, _, _, rfl, hloops⟩

theorem Answer.of_pump {timeout : τ} (h : Answer c up (.pump timeout) outcome xs down) :
    ∃ events code, xs = [.loop timeout events code] ∧ outcome = c.pumpOutcome code := by
  cases h with
  | pumped => exact ⟨_, _, rfl, rfl⟩

omit [Seconds τ] in
/-- A pump ends well if and only if its loop call does; else it ends with a fault. -/
theorem pumpOutcome_ok_iff {code : Int} : c.pumpOutcome code = .ok () ↔ code = resultOk := by
  unfold pumpOutcome
  split
  · next h => exact ⟨nofun, fun hok => absurd hok h⟩
  · next h => exact ⟨fun _ => Decidable.not_not.mp h, fun _ => rfl⟩

omit [Seconds τ] in
theorem pumpOutcome_error {code : Int} {stop : Stop} (h : c.pumpOutcome code = .error stop) :
    code ≠ resultOk ∧ stop ≠ .outOfFuel := by
  unfold pumpOutcome at h
  split at h
  · next hcode =>
    cases h
    exact ⟨hcode, nofun⟩
  · cases h

end Connection

/-! ## §2 The drain -/

namespace Subscriber

/-- The pumps of a drain that begins with a subscriber that is stopping or not, and how it ends.
Before each pump the subscriber has not been asked to stop. The drain is done when it has been, is
lost in a pump that the library could not make, and never ends otherwise. -/
structure Drained (timeout : τ) (heeds : Bool) (fuel : Nat) (stopping : Bool)
    (pumps : List (Exchange τ)) (result : Except Stop Unit) : Prop where
  onlyPumps : ∀ x ∈ pumps, ∃ events code, x = .loop timeout events code
  unasked : ∀ n < pumps.length, stoppingAfter heeds stopping (pumps.take n) = false
  done : result = .ok () → stoppingAfter heeds stopping pumps = true ∧
    ∀ events code, .loop timeout events code ∈ pumps → code = resultOk
  lost : ∀ f, result = .error (.fault f) → ∃ before events code,
    pumps = before ++ [.loop timeout events code] ∧ code ≠ resultOk
  spent : result = .error .outOfFuel → pumps.length = fuel

theorem Drained.pumped {timeout : τ} {heeds : Bool} {fuel : Nat}
    {pumps : List (Exchange τ)} {result : Except Stop Unit} {events : List NetworkEvent}
    {code : Int}
    (hcode : code = resultOk)
    (h : Drained timeout heeds fuel (stoppingAfter heeds false [.loop timeout events code]) pumps
      result) :
    Drained timeout heeds (fuel + 1) false (.loop timeout events code :: pumps) result := by
  have hcons : ∀ rest : List (Exchange τ),
      stoppingAfter heeds false (.loop timeout events code :: rest) =
        stoppingAfter heeds (stoppingAfter heeds false [.loop timeout events code]) rest :=
    stoppingAfter_append heeds false [_]
  refine ⟨List.forall_mem_cons.mpr ⟨⟨_, _, rfl⟩, h.onlyPumps⟩, ?_, ?_, ?_, ?_⟩
  · intro n hn
    cases n with
    | zero => exact Bool.and_false _
    | succ n =>
      rw [List.take_succ_cons, hcons]
      exact h.unasked n (Nat.lt_of_succ_lt_succ hn)
  · intro hok
    obtain ⟨hasked, hcodes⟩ := h.done hok
    refine ⟨(hcons pumps).trans hasked, fun events' code' hmem => ?_⟩
    rcases List.mem_cons.mp hmem with hhead | hrest
    · cases hhead
      exact hcode
    · exact hcodes _ _ hrest
  · intro f hf
    obtain ⟨before, events', code', rfl, hlost⟩ := h.lost f hf
    exact ⟨_ :: before, _, _, rfl, hlost⟩
  · intro hspent
    rw [List.length_cons, h.spent hspent]

variable [Seconds τ] {c : Connection τ} {wire : Wire τ σ} {fuel : Nat} {handler : Handler τ η}
  {heeds : Bool} {memory : Nat}

variable (c wire fuel handler heeds) in
/-- A pump of a client is one loop call, the next one on the network. -/
theorem pump_carries (timeout : τ) (s : Traced (Note τ) (Client (Line σ) η)) :
    let w := c.surroundings wire fuel handler heeds memory
    ∃ notes events code,
      Client.Carries c wire handler heeds s notes [.loop timeout events code]
        (Client.asked w (.pump timeout) s) ∧
      (Client.requestDeal w (.pump timeout) s).outcome = c.pumpOutcome code ∧
      (Client.asked w (.pump timeout) s).state.env.link.connected =
        standing s.state.env.link.connected (Exchange.loop timeout events code).pumpSigns ∧
      wire.network.loop timeout s.state.env.env =
        ((events, code), (Client.asked w (.pump timeout) s).state.env.env) := by
  intro w
  obtain ⟨notes, hcarries, hanswer⟩ :=
    Client.Carries.asked c wire fuel handler heeds s (.pump timeout)
  obtain ⟨events, code, hxs, houtcome⟩ := hanswer.of_pump
  have hup := hanswer.pump_up
  rw [hxs] at hcarries hup
  refine ⟨notes, events, code, hcarries, houtcome, ?_, ?_⟩
  · rw [hup, List.flatMap_singleton]
  · rw [← hcarries.env]
    exact Wire.loop_of_exchanges hcarries.exchanges

/-- A drain on a connection only pumps, until the subscriber was asked to stop. -/
theorem Drains.drained {timeout : τ} {n : Nat} {s t : Traced (Note τ) (Client (Line σ) η)}
    {deals : List (Deal τ)} {result : Except Stop Unit}
    (h : Drains (c.surroundings wire fuel handler heeds memory) timeout n s deals result t) :
    ∃ notes pumps, Client.Carries c wire handler heeds s notes pumps t ∧
      Drained timeout heeds n s.state.stopping pumps result ∧
      t.state.env.link.connected =
        standing s.state.env.link.connected (pumps.flatMap Exchange.pumpSigns) := by
  induction h with
  | @spent s =>
    exact ⟨[], [], .refl s, ⟨List.forall_mem_nil _, nofun, nofun, nofun, fun _ => rfl⟩, rfl⟩
  | @stopped n s hstopping =>
    refine ⟨[], [], .refl s, ⟨List.forall_mem_nil _, nofun, fun _ => ⟨?_, nofun⟩, nofun, nofun⟩,
      rfl⟩
    rw [stoppingAfter_nil, hstopping]
  | @lost n s stop hstopping hend =>
    obtain ⟨notes, events, code, hcarries, houtcome, hup, -⟩ :=
      pump_carries c wire fuel handler heeds timeout s
    rw [hend] at houtcome
    refine ⟨notes, _, hcarries, ?_, by rw [hup, List.flatMap_singleton]⟩
    obtain ⟨hcode, hfuel⟩ := Connection.pumpOutcome_error houtcome.symm
    refine ⟨List.forall_mem_singleton.mpr ⟨_, _, rfl⟩, ?_, nofun, fun _ _ => ⟨[], _, _, rfl, hcode⟩,
      fun hspent => absurd (Except.error.inj hspent) hfuel⟩
    intro m hm
    obtain rfl : m = 0 := Nat.lt_one_iff.mp hm
    rw [List.take_zero, stoppingAfter_nil, hstopping]
  | @pumped n s deals result t hstopping hend _ ih =>
    obtain ⟨notes, events, code, hcarries, houtcome, hup, -⟩ :=
      pump_carries c wire fuel handler heeds timeout s
    obtain ⟨more, pumps, hmore, hdrained, hups⟩ := ih
    have hstops := hcarries.stopping
    rw [hstopping] at hstops
    rw [hstops] at hdrained
    refine ⟨notes ++ more, _, hcarries.trans hmore, ?_, ?_⟩
    · rw [hstopping]
      exact hdrained.pumped (Connection.pumpOutcome_ok_iff.mp (houtcome.symm.trans hend))
    · rw [hups, hup, ← standing_append]
      rfl

/-! ## §3 A drain that is asked to stop -/

/-- The next pumps on a network, if nothing else is asked of it. -/
def pumpsFrom (wire : Wire τ σ) (timeout : τ) : Nat → σ → List (Exchange τ)
  | 0, _ => []
  | k + 1, env =>
    let ((events, code), env) := wire.network.loop timeout env
    .loop timeout events code :: pumpsFrom wire timeout k env

omit [Seconds τ] in
theorem pumpsFrom_succ {timeout : τ} {k : Nat} {env env' : σ} {events : List NetworkEvent}
    {code : Int} (h : wire.network.loop timeout env = ((events, code), env')) :
    pumpsFrom wire timeout (k + 1) env =
      .loop timeout events code :: pumpsFrom wire timeout k env' := by
  rw [pumpsFrom, h]

/-- In the next `k` pumps a subscriber is asked to stop, if it has not been before, and none of them
fails. -/
structure Asked (wire : Wire τ σ) (timeout : τ) (heeds stopping : Bool) (env : σ) (k : Nat) :
    Prop where
  stops : stoppingAfter heeds stopping (pumpsFrom wire timeout k env) = true
  works : ∀ events code, .loop timeout events code ∈ pumpsFrom wire timeout k env → code = resultOk

omit [Seconds τ] in
/-- A subscriber that has not been asked to stop makes one more pump, which does not fail. -/
theorem Asked.pump {timeout : τ} {k : Nat} {env env' : σ} {events : List NetworkEvent}
    {code : Int} (h : Asked wire timeout heeds false env k)
    (hloop : wire.network.loop timeout env = ((events, code), env')) :
    code = resultOk ∧ ∃ m, k = m + 1 ∧
      Asked wire timeout heeds (stoppingAfter heeds false [.loop timeout events code]) env' m := by
  cases k with
  | zero =>
    have hstops := h.stops
    rw [pumpsFrom, stoppingAfter_nil] at hstops
    cases hstops
  | succ m =>
    have hworks := h.works
    have hstops := h.stops
    rw [pumpsFrom_succ hloop] at hworks hstops
    rw [← List.singleton_append, stoppingAfter_append] at hstops
    exact ⟨hworks _ _ (List.mem_cons_self ..), m, rfl, hstops,
      fun _ _ hmem => hworks _ _ (List.mem_cons_of_mem _ hmem)⟩

/-- A drain with enough fuel is done when the subscriber was asked to stop. -/
theorem Drains.done {timeout : τ} {n k : Nat} {s t : Traced (Note τ) (Client (Line σ) η)}
    {deals : List (Deal τ)} {result : Except Stop Unit}
    (h : Drains (c.surroundings wire fuel handler heeds memory) timeout n s deals result t)
    (hk : k < n) (hasked : Asked wire timeout heeds s.state.stopping s.state.env.env k) :
    result = .ok () := by
  induction h generalizing k with
  | spent => exact absurd hk (Nat.not_lt_zero k)
  | stopped _ => rfl
  | @lost n s stop hstopping hend =>
    obtain ⟨notes, events, code, -, houtcome, -, hloop⟩ :=
      pump_carries c wire fuel handler heeds timeout s
    rw [hstopping] at hasked
    obtain ⟨hcode, -⟩ := hasked.pump hloop
    rw [hend, Connection.pumpOutcome_ok_iff.mpr hcode] at houtcome
    cases houtcome
  | @pumped n s deals result t hstopping _ _ ih =>
    obtain ⟨notes, events, code, hcarries, -, -, hloop⟩ :=
      pump_carries c wire fuel handler heeds timeout s
    rw [hstopping] at hasked
    obtain ⟨-, m, rfl, hmore⟩ := hasked.pump hloop
    have hstops := hcarries.stopping
    rw [hstopping] at hstops
    refine ih (Nat.lt_of_succ_lt_succ hk) ?_
    rw [hstops]
    exact hmore

end Subscriber

end BrokerLoad
