import BrokerLoad.Proofs.Fleet.Step

/-!
# Rules for the parts of a run

A part of a run follows a path of allowed steps. It ends with a value, or with one failing step more:
a call that raised what nobody expects there, an output whose count cannot be read, a number that
cannot be put on a command line, a time that is missing, or a record without a process. The rules
here say this of the basic actions and carry it along the sequence of actions.

## Main definitions

* `Host.Answers`: a machine that answers some deeds.
* `Deed.OrRead`: the deeds of a part and of its failing step.
* `Fleet.Fails`: the failing steps.
* `Fleet.Goes`: the contract of a part of a run.
* `Fleet.Steady`: what a call on the machine cannot change.

## Main statements

* `Fleet.Goes.bind`: two parts in a row.
* `Fleet.Goes.forEach`: a loop over positions.
* `Fleet.Goes.act`, `Fleet.Goes.settle`: a call on the machine, and settling a record.
-/

namespace BrokerLoad

variable {τ σ π α β : Type}

/-- The faults of a call that a run goes on from: a launch that is refused, and a request to a
process that is gone. -/
def Deed.handles : Deed τ π → Fault → Bool
  | .launch _ _, f => (Fleet.refusal? f).isSome
  | .terminate _, f => f.saysGone
  | _, _ => false

/-- A machine that answers the deeds `ok`. A launch may still be refused, and a process that is asked
to stop may be gone. A wait without a limit is only answered if the process is bound to end. -/
def Host.Answers (h : Host τ σ π) (F : Fates σ π) (ok : Deed τ π → Prop) : Prop :=
  ∀ (d : Deed τ π) (s : σ) (f : Fault), ok d → h.Admits F s d → (h.perform d s).1 = .error f →
    d.handles f = true

/-- The allowed deeds, and reading any output: an output that cannot be read is read all the same. -/
def Deed.OrRead (ok : Deed τ π → Prop) : Deed τ π → Prop
  | .read _ _ => True
  | d => ok d

theorem Deed.orRead {ok : Deed τ π → Prop} (d : Deed τ π) (hd : ok d) : OrRead ok d := by
  cases d with
  | read _ _ => trivial
  | _ => exact hd

/-- All times are given. -/
def Patience.Complete (p : Patience τ) : Prop :=
  p.warmup ≠ none ∧ p.graceMargin ≠ none ∧ p.stopGrace ≠ none

variable [Seconds τ]

/-- The output does not end in a count that is no numeral. -/
def Legible (τ : Type) [Seconds τ] (output : Option String) : Prop :=
  ∀ f, (findReport (output.getD "") : Finding τ) ≠ .count (.error f)

namespace Fleet

/-! ## §1 Failing steps and contracts -/

/-- The failing step at the end of a path: what it left and why it failed. -/
inductive Fails (y : Yard τ σ π) (F : Fates σ π) (ok : Deed τ π → Prop) :
    World τ σ π → Fault → World τ σ π → Prop where
  | raised {w : World τ σ π} {d : Deed τ π} {f : Fault} {env : σ} (hok : ok d)
      (hadmits : y.host.Admits F w.state.env d)
      (hanswer : y.host.perform d w.state.env = (.error f, env)) (hhandles : d.handles f = false) :
      Fails y F ok w f (w.after d env)
  | illegible {w : World τ σ π} {i : Nat} {output : Option String} {f : Fault}
      (hcount : (findReport (output.getD "") : Finding τ) = .count (.error f)) :
      Fails y F ok w f (w.noted (.read i output))
  | unwritable {w : World τ σ π} {role : Role} {index : Int} (hok : ok (.enlist role index))
      (hnumbers : (commandNumbers y role).all isWritable = false) :
      Fails y F ok w (.value .unwritableInteger) w
  | lacking {w : World τ σ π} {use : EmptyUse} (hlacks : ¬ y.patience.Complete) :
      Fails y F ok w (.emptyValue use) w
  | noProcess {w : World τ σ π} {i : Nat} {r : Record τ π} {operation : String}
      (hr : w.record? i = some r) (hopen : r.settled = false) (hfree : r.process = none) :
      Fails y F ok w (.noProcess operation) w

/-- The contract of a part of a run. From every world with `P` it follows a path of allowed deeds,
and ends with a value and `Q`, or with a failing step. -/
def Goes (y : Yard τ σ π) (F : Fates σ π) (ok : Deed τ π → Prop) (P : World τ σ π → Prop)
    (a : Act τ σ π α) (Q : α → World τ σ π → Prop) : Prop :=
  ∀ w, P w → a.Meets (· = w) (fun x u => Path y.host F ok w u ∧ Q x u)
    (Action.Faulty fun f u => ∃ v, Path y.host F ok w v ∧ Fails y F ok v f u)

/-- The record at a position is open and has a process. -/
def Busy (i : Nat) (p : π) (w : World τ σ π) : Prop :=
  ∃ r, w.record? i = some r ∧ r.settled = false ∧ r.process = some p

/-- The record at a position is open, and its process is bound to end. -/
def Doomed (F : Fates σ π) (i : Nat) (p : π) (w : World τ σ π) : Prop :=
  Busy i p w ∧ F.ending w.state.env p

/-- The record at a position is open, and its process has exited. -/
def Spent (F : Fates σ π) (i : Nat) (p : π) (w : World τ σ π) : Prop :=
  Busy i p w ∧ F.exited w.state.env p

/-- The record at a position is settled. -/
def Done (i : Nat) (w : World τ σ π) : Prop := ∃ r, w.record? i = some r ∧ r.settled = true

/-- The positions are those of the records of a role. -/
def Lists (role : Role) (positions : List Nat) (w : World τ σ π) : Prop :=
  ∀ i, i ∈ positions ↔ ∃ r, w.record? i = some r ∧ r.role = role

/-- What no call on the machine can change. -/
def Steady (y : Yard τ σ π) (P : World τ σ π → Prop) : Prop :=
  ∀ w d, P w → P (w.after d (y.host.perform d w.state.env).2)

/-- What no path of allowed deeds can change. -/
def Lasting (y : Yard τ σ π) (F : Fates σ π) (ok : Deed τ π → Prop) (P : World τ σ π → Prop) : Prop :=
  ∀ u v, Path y.host F ok u v → P u → P v

variable {y : Yard τ σ π} {F : Fates σ π} {ok ok' : Deed τ π → Prop} {u v w : World τ σ π}

theorem Fails.mono (hok : ∀ d, ok d → ok' d) {f : Fault} (h : Fails y F ok v f u) :
    Fails y F ok' v f u := by
  cases h with
  | raised h1 h2 h3 h4 => exact .raised (hok _ h1) h2 h3 h4
  | illegible h1 => exact .illegible h1
  | unwritable h1 h2 => exact .unwritable (hok _ h1) h2
  | lacking h1 => exact .lacking h1
  | noProcess h1 h2 h3 => exact .noProcess h1 h2 h3

theorem steady_busy (i : Nat) (p : π) : Steady y (Busy i p) := fun _ _ => id

theorem steady_done (i : Nat) : Steady y (Done i) := fun _ _ => id

theorem steady_doomed (hF : y.host.Respects F) (i : Nat) (p : π) : Steady y (Doomed F i p) :=
  fun _ d h => ⟨h.1, hF.stays_ending d h.2⟩

theorem steady_spent (hF : y.host.Respects F) (i : Nat) (p : π) : Steady y (Spent F i p) :=
  fun _ d h => ⟨h.1, hF.stays_exited d h.2⟩

theorem lasting_done (i : Nat) : Lasting y F ok (Done i) := by
  intro u v hpath hyp
  obtain ⟨r, hr, hsettled⟩ := hyp
  -- a settled record never changes, so it stays settled
  obtain ⟨s, hs, hkeeps, _⟩ := hpath.keeps hr
  obtain rfl : s = r := hkeeps.settled hsettled
  exact ⟨s, hs, hsettled⟩

/-- A failing step is a step, or none at all, as far as the records and the deeds go. -/
theorem Fails.path {f : Fault} (h : Fails y F ok v f u) :
    Path y.host F (Deed.OrRead ok) v u := by
  cases h with
  -- the call was made, though it raised
  | @raised d f env hok hadmits hanswer _ =>
    have hstep : Step y.host F (Deed.OrRead ok) v
        (v.after d (y.host.perform d v.state.env).2) := .act (Deed.orRead d hok) hadmits
    rw [hanswer] at hstep
    exact .single hstep
  | @illegible i output f _ => exact .single (.read trivial)
  -- these are found out before any call is made
  | unwritable _ _ | lacking _ | noProcess _ _ _ => exact .refl

theorem Fails.through {f : Fault} (h : Fails y F ok v f u) (hpath : Path y.host F ok w v) :
    Path y.host F (Deed.OrRead ok) w u :=
  (hpath.mono Deed.orRead).trans h.path

theorem Fails.records {f : Fault} (h : Fails y F ok v f u) : u.state.records = v.state.records := by
  cases h <;> rfl

/-! ## §2 What the basic actions do -/

omit [Seconds τ] in
/-- A call gives its answer and leaves the machine as it is then. -/
theorem act_run (d : Deed τ π) (f : σ → Except Fault α × σ) (w : World τ σ π) :
    Action.runFrom (act d f) w =
      match f w.state.env with
      | (.ok a, env) => (.ok a, w.after d env)
      | (.error fault, env) => (.error (.fault fault), w.after d env) := by
  simp only [act, Action.runFrom_bind, Traced.runFrom_note, Traced.runFrom_current,
    Traced.runFrom_change]
  cases f w.state.env with
  | mk answer env => cases answer <;> rfl

omit [Seconds τ] in
theorem log_run (level : Level) (text : String) (w : World τ σ π) :
    Action.runFrom (log level text) w = (.ok (), w.noted (.log ⟨level, logger, text⟩)) := rfl

omit [Seconds τ] in
theorem settle_run (i : Nat) (status : Status) (returncode : Option Int) (error : Option String)
    (w : World τ σ π) :
    Action.runFrom (settle i status returncode error) w =
      (.ok (), (w.noted (.settle i status returncode error)).changed i
        fun r => r.settle status returncode error) := rfl

omit [Seconds τ] in
theorem positionsOf_run (role : Role) (w : World τ σ π) :
    ∃ positions, Action.runFrom (positionsOf role) w = (.ok positions, w) ∧
      Lists role positions w := by
  refine ⟨_, rfl, fun i => ?_⟩
  simp only [List.mem_filter, List.mem_range, beq_iff_eq, Option.map_eq_some_iff]
  constructor
  · exact fun h => h.2
  · intro hyp
    obtain ⟨r, hr, hrole⟩ := hyp
    exact ⟨World.lt_of_record? hr, r, hr, hrole⟩

omit [Seconds τ] in
theorem enlist_run (role : Role) (index : Int) (w : World τ σ π) :
    Action.runFrom (enlist role index) w =
      (.ok w.state.records.length, (w.noted (.enlist role index)).opened { role, index }) := rfl

theorem launch_run (y : Yard τ σ π) (role : Role) (w : World τ σ π) :
    Action.runFrom (launch y role) w =
      (.ok (y.host.launch (commandLine y role) (captureOf role) w.state.env).1,
        w.after (.launch (commandLine y role) (captureOf role))
          (y.host.launch (commandLine y role) (captureOf role) w.state.env).2) := rfl

/-! ## §3 Composing contracts -/

namespace Goes

variable {P P' R : World τ σ π → Prop} {Q Q' : α → World τ σ π → Prop}

theorem mono {a : Act τ σ π α} (h : Goes y F ok P a Q) (hok : ∀ d, ok d → ok' d)
    (hP : ∀ w, P' w → P w) (hQ : ∀ x w, Q x w → Q' x w) : Goes y F ok' P' a Q' := by
  intro w hw
  refine (h w (hP w hw)).mono (fun _ => id) ?_ (Action.Faulty.mono ?_)
  · intro x u hyp
    obtain ⟨hpath, hu⟩ := hyp
    exact ⟨hpath.mono hok, hQ x u hu⟩
  -- a failing step of some deeds is one of more deeds
  · intro f u hyp
    obtain ⟨v, hpath, hfails⟩ := hyp
    exact ⟨v, hpath.mono hok, hfails.mono hok⟩

theorem conseq {a : Act τ σ π α} (h : Goes y F ok P a Q) (hP : ∀ w, P' w → P w)
    (hQ : ∀ x w, Q x w → Q' x w) : Goes y F ok P' a Q' :=
  h.mono (fun _ => id) hP hQ

theorem pre {a : Act τ σ π α} (h : Goes y F ok P a Q) (hP : ∀ w, P' w → P w) :
    Goes y F ok P' a Q :=
  h.conseq hP fun _ _ => id

theorem post {a : Act τ σ π α} (h : Goes y F ok P a Q) (hQ : ∀ x w, Q x w → Q' x w) :
    Goes y F ok P a Q' :=
  h.conseq (fun _ => id) hQ

/-- Two parts in a row. -/
theorem bind {x : Act τ σ π β} {f : β → Act τ σ π α} {R : β → World τ σ π → Prop}
    (hx : Goes y F ok P x R) (hf : ∀ b, Goes y F ok (R b) (f b) Q) :
    Goes y F ok P (x >>= f) Q := by
  intro w hw
  refine (hx w hw).bind fun b => Action.Meets.of_eq ?_
  intro v hyp
  obtain ⟨hpath, hv⟩ := hyp
  refine (hf b v hv).mono (fun _ => id) ?_ (Action.Faulty.mono ?_)
  -- the second part goes on where the first one ended, so their paths join
  · intro a u hyp
    obtain ⟨hpath', hu⟩ := hyp
    exact ⟨hpath.trans hpath', hu⟩
  -- a failing step of the second part comes after the whole first one
  · intro g u hyp
    obtain ⟨v', hpath', hfails⟩ := hyp
    exact ⟨v', hpath.trans hpath', hfails⟩

/-- From contracts for single worlds to one about what holds between the parts of a run. -/
theorem meets {a : Act τ σ π α} {ok : World τ σ π → Deed τ π → Prop}
    {Q : World τ σ π → α → World τ σ π → Prop} {E : Fault → World τ σ π → Prop}
    (h : ∀ w, P w → Goes y F (ok w) (· = w) a (Q w))
    (hQ : ∀ w x u, P w → Path y.host F (ok w) w u → Q w x u → Q' x u)
    (hE : ∀ w f v u, P w → Path y.host F (ok w) w v → Fails y F (ok w) v f u → E f u) :
    a.Meets P Q' (Action.Faulty E) := by
  refine Action.Meets.of_eq fun w hw => (h w hw w rfl).mono (fun _ => id) ?_ (Action.Faulty.mono ?_)
  · exact fun x u hu => hQ w x u hw hu.1 hu.2
  · intro f u hyp
    obtain ⟨v, hpath, hfails⟩ := hyp
    exact hE w f v u hw hpath hfails

/-- As `meets`, when a failing step need not be told from any other. -/
theorem along {a : Act τ σ π α} {ok : World τ σ π → Deed τ π → Prop}
    {Q : World τ σ π → α → World τ σ π → Prop} {E : Fault → World τ σ π → Prop}
    (h : ∀ w, P w → Goes y F (ok w) (· = w) a (Q w))
    (hQ : ∀ w x u, P w → Path y.host F (ok w) w u → Q w x u → Q' x u)
    (hE : ∀ w f u, P w →
      Path y.host F (Deed.OrRead (ok w)) w u → E f u) :
    a.Meets P Q' (Action.Faulty E) :=
  meets h hQ fun w f _ u hw hpath hfails => hE w f u hw (hfails.through hpath)

theorem frame {a : Act τ σ π α} (h : Goes y F ok P a Q) (hR : Lasting y F ok R) :
    Goes y F ok (fun w => P w ∧ R w) a (fun x w => Q x w ∧ R w) := by
  intro w hyp
  obtain ⟨hw, hRw⟩ := hyp
  refine (h w hw).mono (fun _ => id) ?_ (fun _ _ => id)
  intro x u hyp
  obtain ⟨hpath, hu⟩ := hyp
  exact ⟨hpath, hu, hR w u hpath hRw⟩

theorem pure {a : α} (h : ∀ w, P w → Q a w) : Goes y F ok P (Pure.pure a : Act τ σ π α) Q := by
  intro w hw
  apply Action.Meets.pure
  intro _ heq
  subst heq
  exact ⟨.refl, h _ hw⟩

theorem fails {f : Fault} (h : ∀ w, P w → Fails y F ok w f w) :
    Goes y F ok P (Action.fail f : Act τ σ π α) Q := by
  intro w hw
  apply Action.Meets.fail
  intro _ heq
  subst heq
  exact ⟨_, .refl, h _ hw⟩

theorem assuming {a : Act τ σ π α} {c : Prop} (hc : ∀ w, P w → c) (h : c → Goes y F ok P a Q) :
    Goes y F ok P a Q :=
  fun w hw => h (hc w hw) w hw

theorem ite {c : Prop} [Decidable c] {a b : Act τ σ π α} (ha : c → Goes y F ok P a Q)
    (hb : ¬ c → Goes y F ok P b Q) : Goes y F ok P (if c then a else b) Q := by
  by_cases hc : c
  · rw [if_pos hc]
    exact ha hc
  · rw [if_neg hc]
    exact hb hc

theorem discard {a : Act τ σ π α} (h : Goes y F ok P a fun _ => R) :
    Goes y F ok P (Functor.discard a) fun _ => R :=
  fun w hw => (h w hw).discard

/-- A time that is needed is there, if all are given. -/
theorem needed {use : EmptyUse} {time : Option α} (htime : time = none → ¬ y.patience.Complete) :
    Goes y F ok P (Action.ofExcept (BrokerLoad.needed use time))
      fun t w => P w ∧ time = some t := by
  cases time with
  | some t => exact pure fun _ hw => ⟨hw, rfl⟩
  | none => exact fails fun _ _ => .lacking (htime rfl)

/-- A loop over positions: what every round needs lasts until its turn, and what every round does
lasts until the end. -/
theorem forEach {f : Nat → Act τ σ π Unit} {P Q : Nat → World τ σ π → Prop}
    (positions : List Nat) (hP : ∀ i, Lasting y F ok (P i)) (hQ : ∀ i, Lasting y F ok (Q i))
    (hf : ∀ i, Goes y F ok (P i) (f i) fun _ => Q i) :
    Goes y F ok (fun w => ∀ i ∈ positions, P i w) (Fleet.forEach f positions)
      fun _ w => ∀ i ∈ positions, Q i w := by
  -- induction on the positions: what the later rounds need is carried along the first one, and
  -- what the first round did is carried along the later ones
  induction positions with
  | nil => exact pure fun _ _ i hi => absurd hi (List.not_mem_nil)
  | cons i rest ih =>
    have hrest : Lasting y F ok fun w => ∀ j ∈ rest, P j w :=
      fun u v hpath hu j hj => hP j u v hpath (hu j hj)
    refine bind (R := fun _ w => Q i w ∧ ∀ j ∈ rest, P j w) ?_ fun _ => ?_
    -- the first round
    · refine ((hf i).frame hrest).conseq ?_ fun _ _ => id
      intro w hw
      exact ⟨hw i (List.mem_cons_self ..), fun j hj => hw j (List.mem_cons_of_mem _ hj)⟩
    -- the later rounds
    · apply (ih.frame (hQ i)).conseq
      · exact fun w hw => ⟨hw.2, hw.1⟩
      · intro _ w hyp j hj
        obtain ⟨hall, hi⟩ := hyp
        rcases List.mem_cons.1 hj with rfl | hj
        · exact hi
        · exact hall j hj

/-! ## §4 Contracts of the basic actions -/

theorem read {i : Nat} {output : Option String} (hok : ok (.read i output)) (hP : Steady y P) :
    Goes y F ok P (Traced.note (.read i output)) fun _ => P := by
  intro _ hw w heq
  subst heq
  exact ⟨.single (.read hok), hP _ (.read i output) hw⟩

theorem log {level : Level} {text : String} (hok : ok (.log ⟨level, logger, text⟩))
    (hP : Steady y P) : Goes y F ok P (Fleet.log level text) fun _ => P := by
  intro _ hw w heq
  subst heq
  exact ⟨.single (.log hok), hP _ (.log _) hw⟩

/-- A call on the machine answers, or raises a fault that ends the run. What `K` says of an answer is
known afterwards. -/
theorem answer {d : Deed τ π} {f : σ → Except Fault α × σ} {K : α → σ → Prop}
    (hf : ∀ s, y.host.perform d s = bare (f s)) (hok : ok d)
    (hadmits : ∀ w, P w → y.host.Admits F w.state.env d) (hhandles : ∀ f, d.handles f = false)
    (hP : Steady y P) (hK : ∀ s t a, f s = (.ok a, t) → K a t) :
    Goes y F ok P (Fleet.act d f) fun a w => P w ∧ K a w.state.env := by
  intro _ hw w heq
  subst heq
  have hperform : y.host.perform d w.state.env = bare (f w.state.env) := hf w.state.env
  -- what no call can change holds after this one, whatever it answers
  have hafter : P (w.after d (f w.state.env).2) := by
    have h := hP w d hw
    rw [hperform] at h
    exact h
  rw [act_run]
  cases hanswer : f w.state.env with
  | mk answer env =>
    rw [hanswer] at hperform hafter
    cases answer with
    | ok a =>
      have hstep : Step y.host F ok w (w.after d (y.host.perform d w.state.env).2) :=
        .act hok (hadmits w hw)
      rw [hperform] at hstep
      exact ⟨.single hstep, hafter, hK _ _ a hanswer⟩
    -- the call itself is the failing step, and nothing comes before it
    | error fault => exact ⟨w, .refl, .raised hok (hadmits w hw) hperform (hhandles fault)⟩

theorem act {d : Deed τ π} {f : σ → Except Fault α × σ} (hf : ∀ s, y.host.perform d s = bare (f s))
    (hok : ok d) (hadmits : ∀ w, P w → y.host.Admits F w.state.env d)
    (hhandles : ∀ f, d.handles f = false) (hP : Steady y P) :
    Goes y F ok P (Fleet.act d f) fun _ => P :=
  (answer (K := fun _ _ => True) hf hok hadmits hhandles hP fun _ _ _ _ => trivial).post
    fun _ _ hw => hw.1

/-- Logging, whether or not the text can be put together. -/
theorem logAttempt {level : Level} {text : Except Fault String} (hok : ∀ d, d.Logs → ok d)
    (hP : Steady y P) : Goes y F ok P (Fleet.logAttempt y level text) fun _ => P := by
  unfold Fleet.logAttempt
  cases text with
  | ok text => exact log (hok _ trivial) hP
  | error cause =>
    exact act (fun _ => rfl) (hok _ trivial) (fun _ _ => trivial) (fun _ => rfl) hP

theorem now (hok : ok .readClock) (hP : Steady y P) :
    Goes y F ok P (Fleet.now y) fun _ => P :=
  act (fun _ => rfl) hok (fun _ _ => trivial) (fun _ => rfl) hP

theorem recordAt? {i : Nat} :
    Goes y F ok P (Fleet.recordAt? i) fun found w => P w ∧ w.record? i = found := by
  intro w hw _ heq
  subst heq
  exact ⟨.refl, hw, rfl⟩

theorem current :
    Goes y F ok P Traced.current fun fleet w => P w ∧ w.state = fleet := by
  intro _ hw w heq
  subst heq
  exact ⟨.refl, hw, rfl⟩

theorem positionsOf {role : Role} :
    Goes y F ok P (Fleet.positionsOf role) fun positions w => P w ∧ Lists role positions w := by
  intro _ hw w heq
  subst heq
  obtain ⟨positions, hrun, hlists⟩ := positionsOf_run role w
  rw [hrun]
  exact ⟨.refl, hw, hlists⟩

/-- Settling an open record, whose process has exited if it has one. -/
theorem settle {i : Nat} {status : Status} {returncode : Option Int} {error : Option String}
    (hok : ok (.settle i status returncode error)) (hstatus : status ≠ .pending)
    (hP : ∀ w, P w → ∃ r, w.record? i = some r ∧ r.settled = false ∧
      ∀ p, r.process = some p → F.exited w.state.env p) :
    Goes y F ok P (Fleet.settle i status returncode error) fun _ => Done i := by
  intro _ hw w heq
  subst heq
  obtain ⟨r, hr, hopen, hexited⟩ := hP w hw
  rw [settle_run]
  -- the record that was open is the one that is found settled afterwards
  refine ⟨.single (.settle hok hr hopen hstatus hexited),
    r.settle status returncode error, ?_, r.settled_settle hstatus _ _⟩
  rw [World.record?_changed_self, World.record?_noted, hr]
  rfl

theorem report {i : Nat} {f : Record τ π → Record τ π}
    (hf : ∀ r, ∃ sent elapsed, f r = { r with sent, elapsed })
    (hP : ∀ w, P w → ∃ r, w.record? i = some r ∧ r.settled = false) :
    Goes y F ok P (changeRecord i f) fun _ w => ∃ v, P v ∧ w = v.changed i f := by
  intro _ hw w heq
  subst heq
  obtain ⟨r, hr, hopen⟩ := hP w hw
  exact ⟨.single (.report hr hopen (hf r)), w, hw, rfl⟩

end Goes

end Fleet

end BrokerLoad
