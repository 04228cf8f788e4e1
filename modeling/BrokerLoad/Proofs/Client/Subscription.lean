import BrokerLoad.Proofs.Client.Grants
import BrokerLoad.Proofs.Client.Standing
import Mathlib.Tactic.MkIffOfInductiveProp

/-!
# Which answer belongs to which subscription

The answers to subscriptions may come at any time, in the loop calls of any request, and those that
nobody asked for yet stay in the table. A subscription that was given up leaves its number behind,
and its answer may still come. As long as the library hands out no number twice, and brings answers
for numbers only that it handed out, the table has no answer to a subscription that is just being
made. So what decides about this one are its own answers, whatever else comes.

## Main definitions

* `Connection.History`: a connection after any requests.
* `Orderly`: a library that numbers its requests properly.
* `Outstanding`: what was answered since its answer was taken last.
* `Connection.OwnAnswer`: the answer that decides a subscription.
* `Connection.Matched`: how a subscription goes.

## Main statements

* `Connection.request_ids`: the table after a request.
* `Connection.History.ids`: the table after any requests.
* `Connection.subscribe_matched`: a subscription is decided by its own answer.
-/

namespace BrokerLoad

variable {τ σ α β : Type}

/-! ## §1 Requests that keep the table -/

namespace Connection

variable {c : Connection τ} {w : Wire τ σ}

/-- Since `s` every answer that came went into the table, and none was taken out. -/
def GatheredSince (c : Connection τ) (w : Wire τ σ) (s t : Traced (Note τ) (Line σ)) : Prop :=
  ∃ xs, Gathered c w s xs t

/-- An action that puts every answer it is brought into the table, and takes none out. -/
def Gathers (c : Connection τ) (w : Wire τ σ) (a : Act τ σ α) : Prop :=
  ∀ s, Action.Meets (GatheredSince c w s) a (fun _ => GatheredSince c w s)
    fun _ => GatheredSince c w s

namespace Gathers

theorem of_run {a : Act τ σ α} (h : ∀ s, GatheredSince c w s (Action.runFrom a s).2) :
    Gathers c w a := by
  rintro s t ⟨xs, hxs⟩
  obtain ⟨ys, hys⟩ := h t
  generalize Action.runFrom a t = e at hys ⊢
  obtain ⟨outcome, u⟩ := e
  cases outcome <;> exact ⟨xs ++ ys, hxs.trans hys⟩

theorem run {a : Act τ σ α} (h : Gathers c w a) (s : Traced (Note τ) (Line σ)) :
    GatheredSince c w s (Action.runFrom a s).2 := by
  have hend := h s s ⟨[], .quiet (.unnoted rfl rfl) rfl rfl⟩
  generalize Action.runFrom a s = e at hend ⊢
  obtain ⟨outcome, t⟩ := e
  cases outcome <;> exact hend

/-- What leaves everything as it is. -/
theorem still {a : Act τ σ α} (h : ∀ s, (Action.runFrom a s).2 = s) : Gathers c w a :=
  of_run fun s => ⟨[], by rw [h s]; exact .quiet (.unnoted rfl rfl) rfl rfl⟩

theorem bind {x : Act τ σ β} {f : β → Act τ σ α} (hx : Gathers c w x)
    (hf : ∀ b, Gathers c w (f b)) : Gathers c w (x >>= f) :=
  fun s => (hx s).bind fun b => hf b s

theorem ite {p : Prop} [Decidable p] {a b : Act τ σ α} (ha : Gathers c w a)
    (hb : Gathers c w b) : Gathers c w (if p then a else b) := by
  split
  · exact ha
  · exact hb

theorem recover {a : Act τ σ α} {handle : Fault → Option (Act τ σ α)} (ha : Gathers c w a)
    (hanswer : ∀ f b, handle f = some b → Gathers c w b) :
    Gathers c w (Action.recover a handle) :=
  fun s => .recover (ha s) (fun f b hb => hanswer f b hb s) fun _ _ _ h => h

theorem fail (f : Fault) : Gathers c w (Action.fail f : Act τ σ α) := still fun _ => rfl

theorem pure (a : α) : Gathers c w (Pure.pure a : Act τ σ α) := still fun _ => rfl

theorem current : Gathers c w (Traced.current : Act τ σ (Line σ)) := still fun _ => rfl

theorem now : Gathers c w (now w) := still fun _ => rfl

theorem remember (f : Link → Link) (h : ∀ link, (f link).grants = link.grants) :
    Gathers c w (remember f) :=
  of_run fun s => ⟨[], .quiet (.unnoted rfl rfl) rfl (h s.state.link)⟩

/-- A connection that takes itself for down. -/
theorem down : Gathers c w (Connection.remember fun link => { link with connected := false }) :=
  remember _ fun _ => rfl

theorem log (level : Level) (text : String) : Gathers c w (log w level text) :=
  of_run fun _ => ⟨[], .quiet (.of_noted (.log _) rfl) rfl rfl⟩

/-- A call of the library other than `loop` brings no answer. -/
theorem call {noted : NetworkCall τ} {f : σ → α × σ} (x : σ → Exchange τ)
    (hreplay : ∀ env time, w.replay env ⟨time, .network noted⟩ = (some (x env), (f env).2))
    (hevents : ∀ env, (x env).events = []) : Gathers c w (call w noted f) := by
  refine of_run fun s => ?_
  have hquiet : (x s.state.env).granted = [] := by rw [Exchange.granted, hevents]; rfl
  refine ⟨[x s.state.env], .quiet (.of_noted (.call (hreplay _ _)) ?_) ?_ rfl⟩
  · rw [List.flatMap_singleton, hevents]
  · rw [List.flatMap_singleton, hquiet]

theorem hangUp : Gathers c w (hangUp w) :=
  call (fun _ => .disconnect) (fun _ _ => rfl) fun _ => rfl

theorem publish (topic : String) (payload : Bytes) (qos : Int) :
    Gathers c w (publish c w topic payload qos) := by
  refine (call (fun env => .publish topic payload qos
    (w.network.publish topic payload qos env).1.1 (w.network.publish topic payload qos env).1.2)
    (fun _ _ => rfl) fun _ => rfl).bind fun result => ?_
  have hunwilling : ∀ {p : Prop} [Decidable p] {f : Fault} {a : Act τ σ Int}, Gathers c w a →
      Gathers c w (if p then Action.fail f >>= fun (_ : Unit) => a else a) :=
    fun ha => .ite ((fail _).bind fun _ => ha) ha
  exact hunwilling (hunwilling (.pure _))

variable [Seconds τ]

theorem loop (timeout : τ) : Gathers c w (loop c w timeout) := by
  refine of_run fun s => ?_
  obtain ⟨events, code, t, hrun, halong, hlink⟩ := loop_along (c := c) (w := w) timeout s
  refine ⟨_, by rw [hrun]; exact halong, fun k => ?_⟩
  rw [hrun, hlink, Link.mem_ids_after, List.flatMap_singleton]
  exact Iff.rfl

theorem awaitAnswer (deadline : τ) (fuel : Nat) : Gathers c w (awaitAnswer c w deadline fuel) := by
  -- the induction follows the fuel, which lasts one loop call longer each time
  induction fuel with
  | zero => exact still fun _ => rfl
  | succ fuel ih =>
    rw [Connection.awaitAnswer]
    refine current.bind fun line => ?_
    split
    · exact .ite (.fail _) (.pure ())
    · have hgoes : Gathers c w (do
          let code ← Connection.loop c w handshakeSlice
          if code ≠ resultOk ∧ (← Traced.current).link.answer = none then
            Action.fail (.connect (.handshake c.broker (resultText code)))
          Connection.awaitAnswer c w deadline fuel : Act τ σ Unit) :=
        (loop _).bind fun code => current.bind fun line => .ite ((fail _).bind fun _ => ih) ih
      exact now.bind fun time => .ite ((fail _).bind fun _ => hgoes) hgoes

theorem abandon : Gathers c w (abandon c w) :=
  down.bind fun _ => hangUp.bind fun _ s => (loop _ s).discard

theorem greet (deadline : τ) (fuel : Nat) : Gathers c w (greet c w deadline fuel) := by
  refine (recover (awaitAnswer deadline fuel) ?_).bind fun _ => log _ _
  intro f answer hanswer
  split at hanswer
  · obtain rfl := Option.some.inj hanswer
    exact abandon.bind fun _ => fail _
  · cases hanswer

theorem connect (fuel : Nat) : Gathers c w (connect c w fuel) := by
  have hgreet : Gathers c w (Connection.now w >>= fun time =>
      Connection.greet c w (Seconds.add time c.connectTimeout) fuel) := now.bind fun _ => greet _ _
  have hunopened : ∀ f, Gathers c w (Action.fail f >>= fun (_ : Unit) => Connection.now w >>=
      fun time => Connection.greet c w (Seconds.add time c.connectTimeout) fuel) :=
    fun f => (fail f).bind fun _ => hgreet
  refine (remember (fun link => { link with answer := none }) fun _ => rfl).bind fun _ => ?_
  refine (call (fun env => .connect c.broker.host c.broker.port c.keepalive
    (w.network.connect c.broker.host c.broker.port c.keepalive env).1) (fun _ _ => rfl)
    fun _ => rfl).bind fun opened => ?_
  dsimp only
  split
  · exact hgreet
  · exact hunopened _
  · exact hunopened _
  · exact hunopened _
  · exact hunopened _

theorem pump (timeout : τ) : Gathers c w (pump c w timeout) := by
  refine (loop timeout).bind fun code => .ite ?_ (.pure ())
  exact down.bind fun _ => .fail _

theorem disconnect : Gathers c w (disconnect c w) := by
  refine current.bind fun line => .ite (hangUp.bind fun _ => ?_) (.pure ())
  exact (loop _).bind fun _ => down

end Gathers

/-! ## §2 The table after a request -/

/-- Whether a subscription got its answer: it was granted or refused. -/
def isAnswered : Except Stop Unit → Bool
  | .ok () => true
  | .error (.fault (.subscribe (.refused _ _))) => true
  | _ => false

/-- What the codes of an answer make of a subscription: the first failure refuses it. -/
def granting (topic : String) (codes : List ReasonCode) : Except Stop Unit :=
  match codes.find? (·.failure) with
  | some refusal => .error (.fault (.subscribe (.refused topic refusal.name)))
  | none => .ok ()

theorem isAnswered_granting (topic : String) (codes : List ReasonCode) :
    isAnswered (granting topic codes) = true := by
  unfold granting
  split <;> rfl

/-- The subscription whose answer a request took out of the table, by its exchanges and its end. -/
def consumed (outcome : Except Stop Unit) : List (Exchange τ) → List Int
  | .subscribe _ _ _ id :: _ => if isAnswered outcome then [id] else []
  | _ => []

/-- A connection whose library was asked to subscribe. -/
def applied (w : Wire τ σ) (topic : String) (qos : Int) (s : Traced (Note τ) (Line σ)) :
    Traced (Note τ) (Line σ) :=
  called w (.subscribe topic qos) (w.network.subscribe topic qos s.state.env).2 s

/-- The call of the library that a subscription begins with. -/
def application (w : Wire τ σ) (topic : String) (qos : Int) (env : σ) : Exchange τ :=
  .subscribe topic qos (w.network.subscribe topic qos env).1.1
    (w.network.subscribe topic qos env).1.2

variable {topic : String} {qos : Int} {s : Traced (Note τ) (Line σ)}

theorem applied_gathered (topic : String) (qos : Int) (s : Traced (Note τ) (Line σ)) :
    Gathered c w s [application w topic qos s.state.env] (applied w topic qos s) :=
  .quiet (.of_noted (.call rfl) rfl) rfl rfl

variable [Seconds τ] {fuel : Nat}

/-- The wait of a subscription whose library call was made in `env`. -/
def ownWait (c : Connection τ) (w : Wire τ σ) (topic : String) (qos : Int) (fuel : Nat) (env : σ) :
    Act τ σ (List ReasonCode) :=
  awaitGrant c w topic (w.network.subscribe topic qos env).1.2
    (Seconds.add (w.timer.now (w.network.subscribe topic qos env).2) standardTimeout) fuel

/-- A subscription that the library refuses to send has no answer. -/
theorem subscribe_unsent (fuel : Nat)
    (h : (w.network.subscribe topic qos s.state.env).1.1 ≠ resultOk) :
    ∃ stop, Action.runFrom (subscribe c w topic qos fuel) s = (.error stop, applied w topic qos s) ∧
      isAnswered (.error stop) = false := by
  simp only [subscribe, Action.runFrom_bind (x := call _ _ _), call_eq, Action.runFrom_ite,
    Action.runFrom_bind (x := Action.fail _), Action.runFrom_fail, if_pos h]
  split
  · exact ⟨_, rfl, rfl⟩
  · exact ⟨_, rfl, rfl⟩

/-- Any other waits for its answer, which decides. -/
theorem subscribe_sent (h : (w.network.subscribe topic qos s.state.env).1.1 = resultOk) :
    let e := Action.runFrom (ownWait c w topic qos fuel s.state.env) (applied w topic qos s)
    Action.runFrom (subscribe c w topic qos fuel) s = (e.1.bind (granting topic), e.2) := by
  intro e
  have hconnected : (w.network.subscribe topic qos s.state.env).1.1 ≠ resultNoConnection := by
    rw [h]
    decide
  have hwait : Action.runFrom (awaitGrant c w topic (w.network.subscribe topic qos s.state.env).1.2
        (Seconds.add (w.timer.now (applied w topic qos s).state.env) standardTimeout) fuel)
        (applied w topic qos s) = e := rfl
  simp only [subscribe, Action.runFrom_bind (x := call _ _ _), call_eq, if_neg hconnected,
    if_neg (not_not_intro h)]
  rw [← applied]
  simp only [Action.runFrom_bind, runFrom_now, hwait]
  generalize e = e
  obtain ⟨outcome, t⟩ := e
  cases outcome with
  | ok codes =>
    simp only [Except.bind, granting]
    cases codes.find? (·.failure) <;> rfl
  | error stop => rfl

/-- What ends a wait without an answer is none. -/
theorem GrantWait.not_isAnswered {id : Int} {deadline : τ} {env : σ} {n : Nat} {stop : Stop}
    (h : GrantWait c w topic id deadline fuel env n (.error stop)) :
    isAnswered (.error stop) = false := by
  cases h <;> rfl

/-- A wait gathers what its loop calls bring, whether it finds an answer at once or not. -/
theorem awaitGrant_leaves (topic : String) (id : Int) (deadline : τ) (fuel : Nat)
    (s : Traced (Note τ) (Line σ)) :
    ∃ xs outcome t, Action.runFrom (awaitGrant c w topic id deadline fuel) s =
        (outcome, leaving id outcome t) ∧
      Gathered c w s xs t ∧ ∀ stop, outcome = .error stop → isAnswered (.error stop) = false := by
  have hstay : Gathered c w s [] s := .quiet (.unnoted rfl rfl) rfl rfl
  cases hgrants : s.state.link.grants.lookup id with
  | none =>
    obtain ⟨n, outcome, t, hrun, hwait, hgathered⟩ :=
      awaitGrant_waits (c := c) (w := w) topic deadline fuel s hgrants
    refine ⟨_, outcome, t, hrun, hgathered, fun stop hstop => ?_⟩
    subst hstop
    exact hwait.not_isAnswered
  | some codes =>
    cases fuel with
    | zero =>
      -- without fuel the wait does not even look into the table
      refine ⟨[], _, s, rfl, hstay, fun stop hstop => ?_⟩
      cases hstop
      rfl
    | succ fuel => exact ⟨[], _, s, awaitGrant_found hgrants, hstay, nofun⟩

omit [Seconds τ] in
/-- A subscription takes its own answer out of the table if and only if that decided it. -/
theorem consumed_application (outcome : Except Stop Unit) (env : σ) (loops : List (Exchange τ)) :
    consumed outcome (application w topic qos env :: loops) =
      if isAnswered outcome then [(w.network.subscribe topic qos env).1.2] else [] := rfl

/-- Apart from that it puts what it is brought into the table. -/
theorem subscribe_leaves (topic : String) (qos : Int) (fuel : Nat)
    (s : Traced (Note τ) (Line σ)) :
    ∃ loops, let xs := application w topic qos s.state.env :: loops
      let e := Action.runFrom (subscribe c w topic qos fuel) s
      Along c w s xs e.2 ∧ ∀ k, k ∈ e.2.state.link.ids ↔
        (k ∈ xs.flatMap Exchange.granted ∨ k ∈ s.state.link.ids) ∧ k ∉ consumed e.1 xs := by
  have hcall := applied_gathered (c := c) (w := w) topic qos s
  have hkept : ∀ {loops t stop}, isAnswered (.error stop) = false →
      Gathered c w s (application w topic qos s.state.env :: loops) t →
      ∀ k, k ∈ t.state.link.ids ↔
        (k ∈ (application w topic qos s.state.env :: loops).flatMap Exchange.granted ∨
          k ∈ s.state.link.ids) ∧
        k ∉ consumed (.error stop) (application w topic qos s.state.env :: loops) := by
    intro loops t stop hstop hall k
    rw [consumed_application, hstop, if_neg Bool.false_ne_true, and_iff_left List.not_mem_nil]
    exact hall.ids k
  by_cases hsent : (w.network.subscribe topic qos s.state.env).1.1 = resultOk
  · obtain ⟨loops, outcome, t, hrun, hwait, hstop⟩ := awaitGrant_leaves (c := c) (w := w) topic
      (w.network.subscribe topic qos s.state.env).1.2
      (Seconds.add (w.timer.now (w.network.subscribe topic qos s.state.env).2) standardTimeout)
      fuel (applied w topic qos s)
    have hall := hcall.trans hwait
    rw [← ownWait] at hrun
    refine ⟨loops, ?_⟩
    rw [subscribe_sent hsent, hrun]
    refine ⟨hall.along.leaving _ _, ?_⟩
    cases outcome with
    | ok codes =>
      -- whatever the codes are, the answer is taken out before they are looked at
      intro k
      dsimp only [Except.bind]
      rw [consumed_application, isAnswered_granting, if_pos rfl, List.mem_singleton]
      exact mem_ids_filter_ne.trans (and_comm.trans (and_congr_left' (hall.ids k)))
    | error stop => exact hkept (hstop stop rfl) hall
  · obtain ⟨stop, hrun, hstop⟩ := subscribe_unsent (c := c) fuel hsent
    refine ⟨[], ?_⟩
    rw [hrun]
    exact ⟨hcall.along, hkept hstop hcall⟩

/-- Only a subscription takes an answer out of the table. -/
theorem Answer.consumed_nil {before up : Bool} {r : Request τ} {outcome : Except Stop Unit}
    {xs : List (Exchange τ)} (h : Answer c before r outcome xs up)
    (hother : ∀ topic qos, r ≠ .subscribe topic qos) : consumed outcome xs = [] := by
  cases h with
  | subscribed => exact absurd rfl (hother _ _)
  | _ => rfl

omit [Seconds τ] in
/-- A request that gathers what it is brought keeps all of it in the table. -/
theorem Gathers.reply {a : Act τ σ α} (h : Gathers c w a) (line : Line σ) (k : Int) :
    k ∈ (replyOf a line).2.link.ids ↔
      k ∈ (w.exchanges line.env (replyOf a line).1.notes).flatMap Exchange.granted ∨
        k ∈ line.link.ids := by
  obtain ⟨xs, hgathered⟩ := h.run { state := line }
  rw [hgathered.along.reply]
  exact hgathered.ids k

/-- Whatever is requested, the table holds the answers that it held and those that came, without
the one that was taken out. -/
theorem request_ids (fuel : Nat) (r : Request τ) (line : Line σ) (k : Int) :
    let e := (session c w fuel).answer r line
    let xs := w.exchanges line.env e.1.notes
    k ∈ e.2.link.ids ↔
      (k ∈ xs.flatMap Exchange.granted ∨ k ∈ line.link.ids) ∧ k ∉ consumed e.1.outcome xs := by
  intro e xs
  have hquiet : (∀ topic qos, r ≠ .subscribe topic qos) → k ∉ consumed e.1.outcome xs := by
    intro hother
    obtain ⟨ys, hanswer, hnoted⟩ := request_replies (c := c) (w := w) fuel r line
    obtain rfl : xs = ys := hnoted.exchanges
    rw [hanswer.consumed_nil hother]
    exact List.not_mem_nil
  cases r with
  | connect => exact ((Gathers.connect fuel).reply line k).trans (and_iff_left (hquiet nofun)).symm
  | disconnect => exact (Gathers.disconnect.reply line k).trans (and_iff_left (hquiet nofun)).symm
  | publish topic payload qos =>
    exact ((Gathers.publish topic payload qos).reply line k).trans
      (and_iff_left (hquiet nofun)).symm
  | pump timeout =>
    exact ((Gathers.pump timeout).reply line k).trans (and_iff_left (hquiet nofun)).symm
  | subscribe topic qos =>
    obtain ⟨loops, halong, hids⟩ :=
      subscribe_leaves (c := c) (w := w) topic qos fuel { state := line }
    have hcalls : xs = application w topic qos line.env :: loops := halong.reply
    have hend : e.1.outcome = (Action.runFrom (subscribe c w topic qos fuel) { state := line }).1 :=
      congrArg Prod.fst (unvalued_unit (Action.runFrom (subscribe c w topic qos fuel)
        { state := line }))
    rw [hcalls, hend]
    exact hids k

end Connection

/-! ## §3 What was answered and taken -/

/-- What happens to an answer to the subscription with a number: it comes, or it is taken. -/
inductive Mark where
  | delivered (id : Int)
  | consumed (id : Int)
  deriving DecidableEq, Repr

/-- What a request does to answers, by its exchanges and its end: those that come are there before
one is taken. -/
def marksOf (outcome : Except Stop Unit) (xs : List (Exchange τ)) : List Mark :=
  (xs.flatMap Exchange.granted).map .delivered ++ (Connection.consumed outcome xs).map .consumed

/-- An answer came since the last one was taken, if one ever was. -/
def Outstanding (k : Int) (marks : List Mark) : Prop :=
  ∃ earlier later, marks = earlier ++ .delivered k :: later ∧ .consumed k ∉ later

section Outstanding

variable {k : Int} {marks : List Mark}

theorem outstanding_concat {m : Mark} :
    Outstanding k (marks ++ [m]) ↔ m = .delivered k ∨ m ≠ .consumed k ∧ Outstanding k marks := by
  constructor
  · rintro ⟨earlier, later, hmarks, hlater⟩
    -- the new mark is the delivery itself, or comes after it
    rcases List.eq_nil_or_concat later with rfl | ⟨later, last, rfl⟩
    · exact .inl (List.singleton_inj.mp (List.append_inj' hmarks rfl).2)
    · rw [List.concat_eq_append, ← List.cons_append, ← List.append_assoc] at hmarks
      obtain ⟨rfl, hlast⟩ := List.append_inj' hmarks rfl
      obtain rfl := List.singleton_inj.mp hlast
      rw [List.concat_eq_append, List.mem_append, List.mem_singleton, not_or] at hlater
      exact .inr ⟨Ne.symm hlater.2, earlier, later, rfl, hlater.1⟩
  · rintro (rfl | ⟨hm, earlier, later, rfl, hlater⟩)
    · exact ⟨marks, [], rfl, List.not_mem_nil⟩
    · refine ⟨earlier, later ++ [m], by simp, ?_⟩
      rw [List.mem_append, List.mem_singleton, not_or]
      exact ⟨hlater, Ne.symm hm⟩

theorem outstanding_delivered (ids : List Int) :
    Outstanding k (marks ++ ids.map .delivered) ↔ k ∈ ids ∨ Outstanding k marks := by
  induction ids generalizing marks with
  | nil => simp
  | cons id rest ih =>
    rw [List.map_cons, List.append_cons, ih, outstanding_concat, List.mem_cons,
      Mark.delivered.injEq, and_iff_right (by exact nofun), eq_comm (a := id)]
    exact or_left_comm.trans or_assoc.symm

theorem outstanding_consumed (ids : List Int) :
    Outstanding k (marks ++ ids.map .consumed) ↔ Outstanding k marks ∧ k ∉ ids := by
  induction ids generalizing marks with
  | nil => simp
  | cons id rest ih =>
    rw [List.map_cons, List.append_cons, ih, outstanding_concat, or_iff_right (by exact nofun),
      List.mem_cons, not_or, ne_eq, Mark.consumed.injEq, eq_comm (a := id), and_assoc]
    exact and_left_comm

theorem outstanding_marksOf {outcome : Except Stop Unit} {xs : List (Exchange τ)} :
    Outstanding k (marks ++ marksOf outcome xs) ↔
      (k ∈ xs.flatMap Exchange.granted ∨ Outstanding k marks) ∧
        k ∉ Connection.consumed outcome xs := by
  rw [marksOf, ← List.append_assoc, outstanding_consumed, outstanding_delivered]

end Outstanding

/-! ## §4 Histories of a connection -/

/-- The numbers that the library hands out in an exchange. A subscription without a connection gets
none. -/
def Exchange.handedOut : Exchange τ → List Int
  | .publish _ _ _ _ id => [id]
  | .subscribe _ _ code id => if code = resultNoConnection then [] else [id]
  | _ => []

/-- A library that hands out no number twice, and brings answers only for numbers that it handed
out before. -/
@[mk_iff]
structure Orderly (xs : List (Exchange τ)) : Prop where
  fresh : (xs.flatMap Exchange.handedOut).Nodup
  asked : ∀ i (h : i < xs.length), ∀ id ∈ xs[i].granted,
    id ∈ (xs.take i).flatMap Exchange.handedOut

instance (xs : List (Exchange τ)) : Decidable (Orderly xs) :=
  decidable_of_iff' _ (orderly_iff xs)

/-- A number that an orderly library is just handing out was not answered before. -/
theorem Orderly.unanswered {past : List (Exchange τ)} {x : Exchange τ} {id : Int}
    (h : Orderly (past ++ [x])) (hid : id ∈ x.handedOut) : id ∉ past.flatMap Exchange.granted := by
  intro hanswered
  obtain ⟨y, hy, hgranted⟩ := List.mem_flatMap.mp hanswered
  obtain ⟨i, hi, rfl⟩ := List.getElem_of_mem hy
  -- it was handed out before that answer came, so it would be handed out twice now
  have hbefore := h.asked i (by rw [List.length_append]; omega) id
    (by rwa [List.getElem_append_left hi])
  rw [List.take_append_of_le_length (Nat.le_of_lt hi)] at hbefore
  obtain ⟨z, hz, hearlier⟩ := List.mem_flatMap.mp hbefore
  have hfresh := h.fresh
  rw [List.flatMap_append, List.flatMap_singleton, List.nodup_append] at hfresh
  exact hfresh.2.2 id (List.mem_flatMap.mpr ⟨z, List.mem_of_mem_take hz, hearlier⟩) id hid rfl

namespace Connection

variable [Seconds τ] {c : Connection τ} {w : Wire τ σ}

/-- A connection after any requests, in any environments, with the exchanges that it made and what
became of the answers that came. -/
inductive History (c : Connection τ) (w : Wire τ σ) : List (Exchange τ) → List Mark → Link → Prop
  | fresh : History c w [] [] {}
  | asked {past marks link e xs} (env : σ) (r : Request τ) (fuel : Nat) :
    History c w past marks link → (session c w fuel).answer r ⟨env, link⟩ = e →
    w.exchanges env e.1.notes = xs →
    History c w (past ++ xs) (marks ++ marksOf e.1.outcome xs) e.2.link

variable {past : List (Exchange τ)} {marks : List Mark} {link : Link}

/-- The table has an answer to those subscriptions that were answered since they were taken out
last. -/
theorem History.ids (h : History c w past marks link) (k : Int) :
    k ∈ link.ids ↔ Outstanding k marks := by
  induction h with
  | fresh =>
    refine iff_of_false List.not_mem_nil ?_
    rintro ⟨earlier, later, hmarks, -⟩
    simp at hmarks
  | asked env r fuel _ he hxs ih =>
    subst he hxs
    rw [outstanding_marksOf, ← ih]
    exact request_ids fuel r _ k

/-- Those are among all that were ever answered. -/
theorem History.answered (h : History c w past marks link) {k : Int} (hk : k ∈ link.ids) :
    k ∈ past.flatMap Exchange.granted := by
  induction h with
  | fresh => cases hk
  | asked env r fuel _ he hxs ih =>
    subst he hxs
    rw [List.flatMap_append, List.mem_append]
    exact ((request_ids fuel r _ k).mp hk).1.symm.imp_left ih

/-! ## §5 How a subscription goes -/

variable {topic : String} {qos : Int} {fuel : Nat} {env : σ}

/-- The codes of the answer that decides a subscription which is sent in `env`. The first loop call
of its wait that fails or brings an answer for its number does not fail, is begun in time, and
brings this answer for it last. -/
def OwnAnswer (w : Wire τ σ) (topic : String) (qos : Int) (fuel : Nat) (env : σ)
    (codes : List ReasonCode) : Prop :=
  let sent := w.network.subscribe topic qos env
  ∃ n, n + 1 < fuel ∧
    Decides w sent.1.2 (Seconds.add (w.timer.now sent.2) standardTimeout) sent.2 n codes

section Granting

variable {outcome : Except Stop (List ReasonCode)}

omit [Seconds τ] in
theorem bind_granting_eq_ok : outcome.bind (granting topic) = .ok () ↔
    ∃ codes, outcome = .ok codes ∧ ∀ code ∈ codes, code.failure = false := by
  cases outcome with
  | error stop => exact ⟨nofun, nofun⟩
  | ok codes =>
    have hnone : granting topic codes = .ok () ↔ codes.find? (·.failure) = none := by
      unfold granting
      cases codes.find? (·.failure) <;> simp
    have hclean : codes.find? (·.failure) = none ↔ ∀ code ∈ codes, code.failure = false := by
      simp
    exact (hnone.trans hclean).trans
      ⟨fun h => ⟨codes, rfl, h⟩, fun ⟨_, heq, h⟩ => Except.ok.inj heq ▸ h⟩

omit [Seconds τ] in
theorem bind_granting_eq_refused {other name : String}
    (h : ∀ stop, outcome = .error stop → isAnswered (.error stop) = false) :
    outcome.bind (granting topic) = .error (.fault (.subscribe (.refused other name))) ↔
      other = topic ∧ ∃ codes refusal, outcome = .ok codes ∧
        codes.find? (·.failure) = some refusal ∧ refusal.name = name := by
  cases outcome with
  | error stop =>
    refine ⟨fun hend => ?_, nofun⟩
    cases hend
    cases h _ rfl
  | ok codes =>
    have hrefused : granting topic codes =
          .error (.fault (.subscribe (.refused other name))) ↔
        other = topic ∧
          ∃ refusal, codes.find? (·.failure) = some refusal ∧ refusal.name = name := by
      unfold granting
      cases codes.find? (·.failure) <;> simp [eq_comm]
    refine hrefused.trans (and_congr_right fun _ => ⟨?_, ?_⟩)
    · rintro ⟨refusal, hfind, hname⟩
      exact ⟨codes, refusal, rfl, hfind, hname⟩
    · rintro ⟨_, refusal, heq, hfind, hname⟩
      cases heq
      exact ⟨refusal, hfind, hname⟩

end Granting

/-- What decides a subscription is among the calls of its wait. -/
theorem GrantWait.mem_turns {id : Int} {deadline : τ} {n : Nat} {codes : List ReasonCode}
    (h : GrantWait c w topic id deadline fuel env n (.ok codes)) :
    ∃ x ∈ w.turns env n, id ∈ x.granted := by
  cases h with
  | @granted n _ _ hdecides =>
    obtain ⟨events, hturn, hlast⟩ := hdecides.granted
    refine ⟨w.turn env n, by simp [Wire.turns_concat], ?_⟩
    rw [hturn]
    exact lastGrant?_isSome.mp (Option.isSome_of_mem hlast)

/-- A subscription that was sent when the table had no answer for its number waits for one, and
that decides. -/
theorem subscribe_waits (fuel : Nat) {link : Link}
    (hsent : (w.network.subscribe topic qos env).1.1 = resultOk)
    (hnone : (w.network.subscribe topic qos env).1.2 ∉ link.ids) :
    let sent := w.network.subscribe topic qos env
    let e := (session c w fuel).subscribe topic qos ⟨env, link⟩
    ∃ n outcome, e.1.outcome = outcome.bind (granting topic) ∧
      w.exchanges env e.1.notes = application w topic qos env :: w.turns sent.2 n ∧
      GrantWait c w topic sent.1.2 (Seconds.add (w.timer.now sent.2) standardTimeout) fuel sent.2 n
        outcome := by
  intro sent e
  let s : Traced (Note τ) (Line σ) := { state := ⟨env, link⟩ }
  obtain ⟨n, outcome, t, hrun, hwait, hgathered⟩ := awaitGrant_waits (c := c) (w := w) topic
    (Seconds.add (w.timer.now sent.2) standardTimeout) fuel (applied w topic qos s)
    (lookup_eq_none_iff_not_mem_ids.mpr hnone)
  have hend : Action.runFrom (subscribe c w topic qos fuel) s =
      (outcome.bind (granting topic), leaving sent.1.2 outcome t) := by
    rw [subscribe_sent hsent, ownWait, hrun]
  refine ⟨n, outcome, ?_, ?_, hwait⟩
  · exact congrArg Prod.fst ((unvalued_unit _).trans hend)
  · have hall := ((applied_gathered (c := c) topic qos s).trans hgathered).along
    have hreply : Along c w s (application w topic qos env :: w.turns sent.2 n)
        (Action.runFrom (subscribe c w topic qos fuel) s).2 := by
      rw [hend]
      exact hall.leaving _ _
    exact hreply.reply

/-- How a subscription goes that is sent in `env` on a connection with some answers. -/
structure Matched (w : Wire τ σ) (topic : String) (qos : Int) (fuel : Nat) (marks : List Mark)
    (env : σ) (outcome : Except Stop Unit) (calls : List (Exchange τ)) (link : Link) : Prop where
  /-- It returns if and only if an answer to it decides that has no failure. -/
  returns : outcome = .ok () ↔
    ∃ codes, OwnAnswer w topic qos fuel env codes ∧ ∀ code ∈ codes, code.failure = false
  /-- It is refused if and only if one decides that has a failure, and names the first. -/
  refuses : ∀ other name, outcome = .error (.fault (.subscribe (.refused other name))) ↔
    other = topic ∧ ∃ codes refusal, OwnAnswer w topic qos fuel env codes ∧
      codes.find? (·.failure) = some refusal ∧ refusal.name = name
  /-- In both cases one of its own loop calls brought an answer for its number, which is gone from
  the table. -/
  own : isAnswered outcome = true → let id := (w.network.subscribe topic qos env).1.2
    (∃ x ∈ calls, id ∈ x.granted) ∧ id ∉ link.ids
  /-- The table has an answer to those that were answered since they were taken out last. -/
  table : ∀ k, k ∈ link.ids ↔ Outstanding k (marks ++ marksOf outcome calls)

/-- Whatever was requested of a connection before, a subscription that the library sends is decided
by its own answer, if the library hands out no number twice and brings answers only for numbers that
it handed out. -/
theorem subscribe_matched (fuel : Nat) (hpast : History c w past marks link)
    (hsent : (w.network.subscribe topic qos env).1.1 = resultOk)
    (horderly : Orderly (past ++ [application w topic qos env])) :
    let e := (session c w fuel).subscribe topic qos ⟨env, link⟩
    Matched w topic qos fuel marks env e.1.outcome (w.exchanges env e.1.notes) e.2.link := by
  intro e
  have hid : (w.network.subscribe topic qos env).1.2 ∈ (application w topic qos env).handedOut := by
    rw [application, Exchange.handedOut, hsent, if_neg (by decide)]
    exact List.mem_singleton_self _
  -- nothing in the table has a number that is just being handed out
  obtain ⟨n, outcome, hend, hcalls, hwait⟩ := subscribe_waits (c := c) fuel hsent
    fun hearly => horderly.unanswered hid (hpast.answered hearly)
  have hstop : ∀ stop, outcome = .error stop → isAnswered (.error stop) = false := by
    rintro stop rfl
    exact hwait.not_isAnswered
  have hids : ∀ k, k ∈ e.2.link.ids ↔ (k ∈ (w.exchanges env e.1.notes).flatMap Exchange.granted ∨
      k ∈ link.ids) ∧ k ∉ consumed e.1.outcome (w.exchanges env e.1.notes) :=
    request_ids fuel (.subscribe topic qos) ⟨env, link⟩
  constructor
  case returns =>
    rw [hend, bind_granting_eq_ok]
    exact exists_congr fun codes => and_congr_left' hwait.ok_iff
  case refuses =>
    intro other name
    rw [hend, bind_granting_eq_refused hstop]
    exact and_congr_right fun _ => exists_congr fun codes => exists_congr fun _ =>
      and_congr_left' hwait.ok_iff
  case own =>
    intro hanswered id
    rw [hids, hcalls, consumed_application, hanswered, if_pos rfl, List.mem_singleton]
    refine ⟨?_, fun hleft => hleft.2 rfl⟩
    rw [hend] at hanswered
    cases outcome with
    | error stop => exact absurd hanswered (Bool.eq_false_iff.mp (hstop stop rfl))
    | ok codes =>
      obtain ⟨x, hx, hgranted⟩ := hwait.mem_turns
      exact ⟨x, List.mem_cons_of_mem _ hx, hgranted⟩
  case table =>
    intro k
    rw [outstanding_marksOf, ← hpast.ids]
    exact hids k

/-- A network that accepts a connection, and then is too slow to answer a subscription. -/
def sluggish : NetworkRehearsal Rat where
  script :=
    { loops := [{ events := [.answered ⟨"Success", false⟩] }, { takes := some 6 },
        { takes := some 6 }] }
  now := 0

/-- The connection after it was accepted there. -/
def accepted : Reply Rat × Line (NetworkRehearsal Rat) :=
  (impatient.session scripted 9).answer .connect ⟨sluggish, {}⟩

/-- The connection after its first subscription was given up. -/
def givenUp : Reply Rat × Line (NetworkRehearsal Rat) :=
  (impatient.session scripted 9).answer (.subscribe "bench" 1) accepted.2

/-- Then the network numbers the next subscription 2. It first brings a refusal for the earlier one,
and later grants this one. -/
def recovered : NetworkRehearsal Rat :=
  givenUp.2.env.withScript
    { subscribeId := 2
      loops := [{ events := [.granted 1 [⟨"Not authorized", true⟩]] }, {},
        { events := [.granted 2 [⟨"Granted QoS 1", false⟩]] }] }

/-- The late refusal of the earlier subscription does not concern this one, which returns, and stays
in the table. -/
theorem late_refusal_is_kept :
    ∃ past marks, History impatient scripted past marks givenUp.2.link ∧
      (scripted.network.subscribe "bench" 1 recovered).1.1 = resultOk ∧
      Orderly (past ++ [application scripted "bench" 1 recovered]) ∧
      isAnswered givenUp.1.outcome = false ∧
      let e := (impatient.session scripted 9).subscribe "bench" 1 ⟨recovered, givenUp.2.link⟩
      (∃ codes, OwnAnswer scripted "bench" 1 9 recovered codes ∧
        ∀ code ∈ codes, code.failure = false) ∧ 1 ∈ e.2.link.ids ∧ 2 ∉ e.2.link.ids := by
  have hopened : History impatient scripted _ _ accepted.2.link :=
    .asked sluggish .connect 9 .fresh rfl rfl
  obtain ⟨past, marks, hpast, horderly⟩ : ∃ past marks,
      History impatient scripted past marks givenUp.2.link ∧
        Orderly (past ++ [application scripted "bench" 1 recovered]) :=
    ⟨_, _, .asked accepted.2.env (.subscribe "bench" 1) 9 hopened rfl rfl, by decide +kernel⟩
  have hsent : (scripted.network.subscribe "bench" 1 recovered).1.1 = resultOk := rfl
  have hmatched := subscribe_matched 9 hpast hsent horderly
  have hreturns : ((impatient.session scripted 9).subscribe "bench" 1
      ⟨recovered, givenUp.2.link⟩).1.outcome = .ok () := by decide +kernel
  have hown := hmatched.own (by rw [hreturns]; rfl)
  exact ⟨past, marks, hpast, hsent, horderly, by decide +kernel, hmatched.returns.mp hreturns,
    by decide +kernel, hown.2⟩

end Connection

end BrokerLoad
