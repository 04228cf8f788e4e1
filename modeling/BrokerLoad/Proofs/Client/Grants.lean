import BrokerLoad.Proofs.Client.Handshake

/-!
# The wait for the answer to a subscription

A connection keeps the broker's answers to subscriptions in a table until somebody asks for them. A
loop call may bring answers to any of them. The wait for one answer makes loop calls until the table
has it, a loop call fails, or the deadline is reached; answers to other subscriptions go into the
table and decide nothing. So the first loop call that fails, or brings an answer to this
subscription, decides, if it is begun before the deadline.

## Main definitions

* `lastGrant?`: the last answer to a subscription among events.
* `Link.ids`, `Exchange.granted`: the subscriptions with an answer in the table, and in a loop call.
* `Exchange.settles`: whether a loop call decides a wait.
* `Connection.GrantWait`: the ways in which a wait goes.

## Main statements

* `Link.lookup_after`, `Link.mem_ids_after`: the table after some events.
* `Connection.awaitGrant_waits`: a wait goes in one of these ways.
* `Connection.GrantWait.ok_iff`: when it ends with an answer.
-/

namespace BrokerLoad

variable {τ σ : Type}

/-! ## §1 Answers to subscriptions among events -/

/-- The answer to the subscription `id` that an event brings, if any. -/
def NetworkEvent.grant? (id : Int) : NetworkEvent → Option (List ReasonCode)
  | .granted other codes => if other = id then some codes else none
  | _ => none

/-- The subscription that an event answers, if any. -/
def NetworkEvent.grantedId? : NetworkEvent → Option Int
  | .granted id _ => some id
  | _ => none

/-- The last answer to the subscription `id` among some events. -/
def lastGrant? (id : Int) (events : List NetworkEvent) : Option (List ReasonCode) :=
  (events.filterMap (NetworkEvent.grant? id)).getLast?

/-- The subscriptions that an exchange answers, in the order of the answers. -/
def Exchange.granted (x : Exchange τ) : List Int := x.events.filterMap NetworkEvent.grantedId?

/-- The subscriptions with an answer in the table. -/
def Link.ids (link : Link) : List Int := link.grants.map Prod.fst

theorem lookup_eq_none_iff_not_mem_ids {link : Link} {id : Int} :
    link.grants.lookup id = none ↔ id ∉ link.ids := by
  rw [List.lookup_eq_none_iff, Link.ids, List.mem_map]
  constructor
  · rintro h ⟨entry, hentry, rfl⟩
    simpa using h entry hentry
  · intro h entry hentry
    simpa using fun heq => h ⟨entry, hentry, heq.symm⟩

section Table

variable {grants : List (Int × List ReasonCode)} {id other : Int}

theorem lookup_filter_ne (grants : List (Int × List ReasonCode)) (id other : Int) :
    (grants.filter (·.1 != id)).lookup other =
      if other = id then none else grants.lookup other := by
  induction grants with
  | nil => simp
  | cons entry rest ih =>
    obtain ⟨key, codes⟩ := entry
    by_cases hkey : key = id
    · subst hkey
      rw [List.filter_cons_of_neg (by simp), ih, List.lookup_cons]
      split
      · rfl
      · next hother => rw [beq_false_of_ne hother]
    · rw [List.filter_cons_of_pos (by simpa using hkey), List.lookup_cons, List.lookup_cons, ih]
      by_cases hother : other = key
      · simp [hother, hkey]
      · rw [beq_false_of_ne hother]

theorem mem_ids_filter_ne :
    other ∈ (grants.filter (·.1 != id)).map Prod.fst ↔
      other ≠ id ∧ other ∈ grants.map Prod.fst := by
  simp only [List.mem_map, List.mem_filter, bne_iff_ne]
  constructor
  · rintro ⟨entry, ⟨hentry, hne⟩, rfl⟩
    exact ⟨hne, entry, hentry, rfl⟩
  · rintro ⟨hne, entry, hentry, rfl⟩
    exact ⟨entry, ⟨hentry, hne⟩, rfl⟩

end Table

/-- The table holds the last answer to a subscription that came, or else the one it held before. -/
theorem Link.lookup_after (id : Int) (events : List NetworkEvent) (link : Link) :
    (events.foldl Link.react link).grants.lookup id =
      (lastGrant? id events).or (link.grants.lookup id) := by
  -- the induction is on the events, as they change the table one after the other
  induction events generalizing link with
  | nil => rfl
  | cons e rest ih =>
    have hlast : lastGrant? id (e :: rest) = (lastGrant? id rest).or (e.grant? id) :=
      getLast?_filterMap_cons _ e rest
    rw [List.foldl_cons, ih, hlast, Option.or_assoc]
    cases e with
    | granted key codes =>
      rw [Link.react, Connection.withGrant, List.lookup_append, lookup_filter_ne, List.lookup_cons,
        NetworkEvent.grant?]
      by_cases hid : id = key
      · simp [hid]
      · simp [hid, Ne.symm hid, beq_false_of_ne hid]
    | _ => rfl

/-- Every answer that comes puts its subscription into the table, and none takes another out. -/
theorem Link.mem_ids_after (id : Int) (events : List NetworkEvent) (link : Link) :
    id ∈ (events.foldl Link.react link).ids ↔
      id ∈ events.filterMap NetworkEvent.grantedId? ∨ id ∈ link.ids := by
  induction events generalizing link with
  | nil => simp
  | cons e rest ih =>
    rw [List.foldl_cons, ih]
    cases e with
    | granted key codes =>
      have hids : id ∈ (link.react (.granted key codes)).ids ↔ id = key ∨ id ∈ link.ids := by
        rw [Link.react, Link.ids, Connection.withGrant, List.map_append, List.mem_append,
          mem_ids_filter_ne, List.map_singleton, List.mem_singleton, Link.ids]
        by_cases hid : id = key <;> simp [hid]
      have hfirst : NetworkEvent.grantedId? (.granted key codes) = some key := rfl
      rw [hids, List.filterMap_cons_some hfirst, List.mem_cons]
      exact or_left_comm.trans or_assoc.symm
    | _ => exact Iff.rfl

/-- A subscription has an answer among some events if and only if one of them answers it. -/
theorem lastGrant?_isSome {id : Int} {events : List NetworkEvent} :
    (lastGrant? id events).isSome = true ↔ id ∈ events.filterMap NetworkEvent.grantedId? := by
  -- both sides say whether an empty table has an answer to it afterwards
  have hids := Link.mem_ids_after id events {}
  have hlookup := Link.lookup_after id events {}
  rw [or_iff_left (by exact List.not_mem_nil)] at hids
  have hnone : lastGrant? id events = none ↔ id ∉ events.filterMap NetworkEvent.grantedId? := by
    rw [← hids, ← lookup_eq_none_iff_not_mem_ids, hlookup]
    simp
  cases hlast : lastGrant? id events with
  | none => exact iff_of_false nofun (hnone.mp hlast)
  | some codes =>
    refine iff_of_true rfl (Decidable.not_not.mp fun hno => ?_)
    cases hlast.symm.trans (hnone.mpr hno)

/-! ## §2 The loop calls of a wait -/

/-- Whether a loop call decides a wait for the answer to the subscription `id`: it fails, or brings
such an answer. -/
def Exchange.settles (id : Int) : Exchange τ → Bool
  | .loop _ events code => code != resultOk || (lastGrant? id events).isSome
  | _ => false

namespace Connection

variable [Seconds τ]

/-- Whether a wait goes on after a loop call: it is begun in time and decides nothing. -/
def Pending (w : Wire τ σ) (id : Int) (deadline : τ) (env : σ) (n : Nat) : Prop :=
  InTime w deadline env n ∧ (w.turn env n).settles id = false

instance (w : Wire τ σ) (id : Int) (deadline : τ) (env : σ) (n : Nat) :
    Decidable (Pending w id deadline env n) := inferInstanceAs (Decidable (_ ∧ _))

/-- The first loop call of a wait that decides it is begun in time, works, and brings `codes` as the
last answer to the subscription. -/
structure Decides (w : Wire τ σ) (id : Int) (deadline : τ) (env : σ) (n : Nat)
    (codes : List ReasonCode) : Prop where
  before : ∀ i < n, Pending w id deadline env i
  inTime : InTime w deadline env n
  granted : ∃ events, w.turn env n = .loop handshakeSlice events resultOk ∧
    lastGrant? id events = some codes

/-- How a wait whose loop calls begin in `env` ends after a number of them: with an answer, because
the last one failed, because the deadline is reached, or not yet. -/
inductive GrantWait (c : Connection τ) (w : Wire τ σ) (topic : String) (id : Int) (deadline : τ)
    (fuel : Nat) (env : σ) : Nat → Except Stop (List ReasonCode) → Prop
  | granted {n codes} : n + 1 < fuel → Decides w id deadline env n codes →
    GrantWait c w topic id deadline fuel env (n + 1) (.ok codes)
  | lost {n events code} : (∀ i < n, Pending w id deadline env i) → InTime w deadline env n →
    w.turn env n = .loop handshakeSlice events code → code ≠ resultOk →
    GrantWait c w topic id deadline fuel env (n + 1)
      (.error (.fault (.connect (.lostInLoop c.client c.broker (resultText code)))))
  | overdue {n} : (∀ i < n, Pending w id deadline env i) → ¬InTime w deadline env n →
    GrantWait c w topic id deadline fuel env n
      (.error (.fault (.subscribe (.noAnswer topic (Seconds.text (standardTimeout : τ))))))
  | endless : (∀ i < fuel - 1, Pending w id deadline env i) →
    GrantWait c w topic id deadline fuel env fuel (.error .outOfFuel)

variable {c : Connection τ} {w : Wire τ σ} {topic : String} {id : Int} {deadline : τ} {fuel : Nat}
  {env : σ} {n : Nat} {s t : Traced (Note τ) (Line σ)}

theorem pending_zero : ∀ i < 0, Pending w id deadline env i :=
  fun _ hi => absurd hi (Nat.not_lt_zero _)

/-- A wait that goes on after its first loop call goes on like one that begins there. -/
theorem pending_succ (hfirst : Pending w id deadline env 0)
    (h : ∀ i < n, Pending w id deadline (w.network.loop handshakeSlice env).2 i) :
    ∀ i < n + 1, Pending w id deadline env i := by
  intro i hi
  cases i with
  | zero => exact hfirst
  | succ i => exact h i (Nat.lt_of_succ_lt_succ hi)

/-- A wait does not go on after a loop call that brings an answer. -/
theorem not_pending_of_grant {events : List NetworkEvent} {code : Int} {codes : List ReasonCode}
    (hturn : w.turn env n = .loop handshakeSlice events code)
    (hlast : lastGrant? id events = some codes) : ¬Pending w id deadline env n := by
  rintro ⟨-, hgoes⟩
  rw [hturn, Exchange.settles, hlast, Option.isSome_some, Bool.or_true] at hgoes
  cases hgoes

/-- Nor does it after one that fails. -/
theorem not_pending_of_lost {events : List NetworkEvent} {code : Int}
    (hturn : w.turn env n = .loop handshakeSlice events code) (hcode : code ≠ resultOk) :
    ¬Pending w id deadline env n := by
  rintro ⟨-, hgoes⟩
  rw [hturn, Exchange.settles, bne_iff_ne.mpr hcode, Bool.true_or] at hgoes
  cases hgoes

theorem GrantWait.succ {outcome : Except Stop (List ReasonCode)}
    (hfirst : Pending w id deadline env 0)
    (h : GrantWait c w topic id deadline fuel (w.network.loop handshakeSlice env).2 n outcome) :
    GrantWait c w topic id deadline (fuel + 1) env (n + 1) outcome := by
  cases h with
  | granted hfuel hdecides =>
    obtain ⟨hbefore, hintime, hgranted⟩ := hdecides
    exact .granted (Nat.succ_lt_succ hfuel) ⟨pending_succ hfirst hbefore, hintime, hgranted⟩
  | lost hbefore hintime hturn hcode =>
    exact .lost (pending_succ hfirst hbefore) hintime hturn hcode
  | overdue hbefore hlate => exact .overdue (pending_succ hfirst hbefore) hlate
  | endless hall =>
    refine .endless fun i hi => ?_
    cases i with
    | zero => exact hfirst
    | succ i => exact hall i (Nat.lt_sub_of_add_lt hi)

/-- A wait ends with an answer if and only if a loop call decides it so, as long as the fuel
lasts. -/
theorem GrantWait.ok_iff {m : Nat} {outcome : Except Stop (List ReasonCode)}
    {codes : List ReasonCode} (h : GrantWait c w topic id deadline fuel env m outcome) :
    outcome = .ok codes ↔ ∃ n, n + 1 < fuel ∧ Decides w id deadline env n codes := by
  constructor
  · rintro rfl
    cases h with
    | granted hfuel hdecides => exact ⟨_, hfuel, hdecides⟩
  · rintro ⟨n, hfuel, hbefore, hintime, events, hturn, hlast⟩
    have hsettles : ¬Pending w id deadline env n := not_pending_of_grant hturn hlast
    -- both waits stop at the same loop call
    have hsame : ∀ {k}, (∀ i < k, Pending w id deadline env i) → ¬Pending w id deadline env k →
        k = n := fun hfirst hstop => Nat.le_antisymm
      (Nat.le_of_not_lt fun hlt => hsettles (hfirst n hlt))
      (Nat.le_of_not_lt fun hlt => hstop (hbefore _ hlt))
    cases h with
    | @granted k other _ hother =>
      obtain ⟨hfirst, -, events', hturn', hlast'⟩ := hother
      obtain rfl := hsame hfirst (not_pending_of_grant hturn' hlast')
      cases hturn.symm.trans hturn'
      cases hlast.symm.trans hlast'
      rfl
    | @lost k events' code hfirst _ hturn' hcode =>
      obtain rfl := hsame hfirst (not_pending_of_lost hturn' hcode)
      cases hturn.symm.trans hturn'
      exact absurd rfl hcode
    | overdue hfirst hlate =>
      obtain rfl := hsame hfirst fun hpending => hlate hpending.1
      exact absurd hintime hlate
    | endless hall => exact absurd (hall n (Nat.lt_sub_of_add_lt hfuel)) hsettles

/-! ## §3 What a wait does -/

omit [Seconds τ] in
/-- From `s` to `t` a connection makes the exchanges `xs`, and every answer to a subscription that
they bring goes into the table. -/
structure Gathered (c : Connection τ) (w : Wire τ σ) (s : Traced (Note τ) (Line σ))
    (xs : List (Exchange τ)) (t : Traced (Note τ) (Line σ)) : Prop where
  along : Along c w s xs t
  ids : ∀ k, k ∈ t.state.link.ids ↔ k ∈ xs.flatMap Exchange.granted ∨ k ∈ s.state.link.ids

omit [Seconds τ] in
theorem Gathered.trans {u : Traced (Note τ) (Line σ)} {xs ys : List (Exchange τ)}
    (h : Gathered c w s xs t) (h' : Gathered c w t ys u) : Gathered c w s (xs ++ ys) u where
  along := h.along.trans h'.along
  ids k := by
    rw [h'.ids, h.ids, List.flatMap_append, List.mem_append]
    exact or_left_comm.trans or_assoc.symm

omit [Seconds τ] in
/-- What brings no answer and leaves the table alone. -/
theorem Gathered.quiet {xs : List (Exchange τ)} (halong : Along c w s xs t)
    (hquiet : xs.flatMap Exchange.granted = []) (hids : t.state.link.grants = s.state.link.grants) :
    Gathered c w s xs t where
  along := halong
  ids k := by rw [hquiet, Link.ids, hids, or_iff_right List.not_mem_nil, Link.ids]

/-- A loop call of a wait gathers what it brings, and fails if its code is no success. -/
theorem pump_turn (id : Int) (s : Traced (Note τ) (Line σ)) :
    let result := w.network.loop handshakeSlice s.state.env
    ∃ t, Action.runFrom (pump c w handshakeSlice) s = (c.pumpOutcome result.1.2, t) ∧
      Gathered c w s [w.turn s.state.env 0] t ∧ t.state.env = result.2 ∧
      t.state.link.grants.lookup id =
        (lastGrant? id result.1.1).or (s.state.link.grants.lookup id) := by
  intro result
  obtain ⟨t, hrun, halong, henv, hlink⟩ := loop_turn (c := c) (w := w) s
  have hlookup := Link.lookup_after id result.1.1 s.state.link
  have hgathered : Gathered c w s [w.turn s.state.env 0] t := by
    refine ⟨halong, fun k => ?_⟩
    rw [hlink, Link.mem_ids_after, List.flatMap_singleton]
    exact Iff.rfl
  rw [← hlink] at hlookup
  simp only [pump, Action.runFrom_bind, hrun, Action.runFrom_ite, pumpOutcome]
  by_cases hok : result.1.2 = resultOk
  · rw [if_neg fun h => h hok, if_neg fun h => h hok]
    exact ⟨t, rfl, hgathered, henv, hlookup⟩
  · rw [if_pos hok, if_pos hok]
    have hdown : Gathered c w t [] (remembering (fun link => { link with connected := false }) t) :=
      .quiet (.unnoted rfl rfl) rfl rfl
    exact ⟨_, rfl, hgathered.trans hdown, henv, hlookup⟩

omit [Seconds τ] in
/-- A connection whose table has lost its answer to a subscription. -/
def forgetting (id : Int) (s : Traced (Note τ) (Line σ)) : Traced (Note τ) (Line σ) :=
  remembering (fun link => { link with grants := link.grants.filter (·.1 != id) }) s

omit [Seconds τ] in
/-- What a wait leaves: an answer that it ends with is taken out of the table. -/
def leaving (id : Int) (outcome : Except Stop (List ReasonCode)) (s : Traced (Note τ) (Line σ)) :
    Traced (Note τ) (Line σ) :=
  match outcome with
  | .ok _ => forgetting id s
  | .error _ => s

omit [Seconds τ] in
theorem Along.leaving {xs : List (Exchange τ)} (h : Along c w s xs t) (id : Int)
    (outcome : Except Stop (List ReasonCode)) : Along c w s xs (leaving id outcome t) := by
  cases outcome with
  | ok _ => exact h.remembering fun link => { link with grants := link.grants.filter (·.1 != id) }
  | error _ => exact h

/-- A wait that finds an answer takes it out of the table. -/
theorem awaitGrant_found {codes : List ReasonCode}
    (h : s.state.link.grants.lookup id = some codes) :
    Action.runFrom (awaitGrant c w topic id deadline (fuel + 1)) s =
      (.ok codes, forgetting id s) := by
  simp only [awaitGrant, Action.runFrom_bind, Traced.runFrom_current, h]
  rfl

/-- A wait that finds none gives up at its deadline, or because its next loop call fails, or else
goes on after that. -/
theorem awaitGrant_none (h : s.state.link.grants.lookup id = none) {outcome : Except Stop Unit}
    (hrun : Action.runFrom (pump c w handshakeSlice) s = (outcome, t)) :
    Action.runFrom (awaitGrant c w topic id deadline (fuel + 1)) s =
      if Seconds.le deadline (w.timer.now s.state.env) then
        (.error (.fault (.subscribe (.noAnswer topic (Seconds.text (standardTimeout : τ))))), s)
      else match outcome with
        | .ok () => Action.runFrom (awaitGrant c w topic id deadline fuel) t
        | .error stop => (.error stop, t) := by
  rw [awaitGrant]
  simp only [Action.runFrom_bind, Traced.runFrom_current, h, runFrom_now, Action.runFrom_ite,
    Action.runFrom_fail, hrun]
  split
  · rfl
  · cases outcome <;> rfl

/-- A wait for an answer that is not in the table goes in one of the ways, and gathers what its loop
calls bring. -/
theorem awaitGrant_waits (topic : String) (deadline : τ) (fuel : Nat)
    (s : Traced (Note τ) (Line σ)) (hnone : s.state.link.grants.lookup id = none) :
    ∃ n outcome t, Action.runFrom (awaitGrant c w topic id deadline fuel) s =
        (outcome, leaving id outcome t) ∧
      GrantWait c w topic id deadline fuel s.state.env n outcome ∧
      Gathered c w s (w.turns s.state.env n) t := by
  have hstay : Gathered c w s (w.turns s.state.env 0) s := .quiet (.unnoted rfl rfl) rfl rfl
  -- a wait with more fuel is one loop call before a wait with less
  induction fuel generalizing s with
  | zero => exact ⟨0, _, s, rfl, .endless pending_zero, hstay⟩
  | succ fuel ih =>
    obtain ⟨t, hrun, hgathered, henv, hlookup⟩ := pump_turn (c := c) (w := w) id s
    have hturn : w.turn s.state.env 0 = .loop handshakeSlice
        (w.network.loop handshakeSlice s.state.env).1.1
        (w.network.loop handshakeSlice s.state.env).1.2 := rfl
    rw [awaitGrant_none hnone hrun]
    split
    · next hlate =>
      exact ⟨0, _, s, rfl, .overdue pending_zero (ne_false_of_eq_true hlate), hstay⟩
    · next hlate =>
      have hintime : InTime w deadline s.state.env 0 := Bool.eq_false_iff.mpr hlate
      generalize (w.network.loop handshakeSlice s.state.env).1 = result at hturn hlookup
      obtain ⟨events, code⟩ := result
      rw [hnone, Option.or_none] at hlookup
      by_cases hok : code = resultOk
      · subst hok
        cases hlast : lastGrant? id events with
        | some codes =>
          rw [hlast] at hlookup
          have hdecides : Decides w id deadline s.state.env 0 codes :=
            ⟨pending_zero, hintime, events, hturn, hlast⟩
          -- the next round finds the answer, if there is one
          cases fuel with
          | zero => exact ⟨1, _, t, rfl, .endless pending_zero, hgathered⟩
          | succ fuel =>
            refine ⟨1, .ok codes, t, ?_, .granted (by omega) hdecides, hgathered⟩
            exact awaitGrant_found hlookup
        | none =>
          rw [hlast] at hlookup
          have hpending : Pending w id deadline s.state.env 0 := by
            refine ⟨hintime, ?_⟩
            rw [hturn, Exchange.settles, hlast]
            rfl
          -- what follows is a wait that begins where this loop call ends
          obtain ⟨n, outcome, u, hrest, hwait, hturns⟩ :=
            ih t hlookup (.quiet (.unnoted rfl rfl) rfl rfl)
          rw [henv] at hwait hturns
          refine ⟨n + 1, outcome, u, hrest, hwait.succ hpending, ?_⟩
          rw [Wire.turns_succ]
          exact hgathered.trans hturns
      · refine ⟨1, _, t, ?_, .lost pending_zero hintime hturn hok, hgathered⟩
        simp only [pumpOutcome, if_pos hok]
        rfl

end Connection

end BrokerLoad
