import BrokerLoad.Proofs.Fleet.Parts
import Mathlib.Data.List.Basic

/-!
# The rounds of a run

A run waits for its publishers, asks its subscribers to stop, and waits for these, one record in
each round. What a round can do is said here once: which calls it makes, in which order, what the
machine answered to each, and what becomes of the record. Everything else about the rounds follows
from that.

## Main definitions

* `Exit`: how a process exited, as far as a run got to know it.
* `Exit.closed`: the record that it makes.
* `Fleet.Collected`, `Fleet.Parted`, `Fleet.Released`: how the exit of a process is got to know.
* `Fleet.Turns`: the contract of a part of a round.
* `Fleet.Joined`, `Fleet.Requested`, `Fleet.Stopped`: what a round leaves.

## Main statements

* `Fleet.joinOne_turns`, `Fleet.terminate_turns`, `Fleet.stopOne_turns`: every round is one of these.
-/

namespace BrokerLoad

variable {τ σ π α β : Type}

/-! ## §1 Exits and what is made of them -/

/-- How a process exited, as far as a run got to know it: whether it was killed for taking too long,
and what the wait for it gave. -/
structure Exit (π : Type) where
  process : π
  killed : Bool
  output : Option String
  code : ExitCode

/-- Whether a process that ended so has done its job. -/
def Exit.succeeds (e : Exit π) : Role → Bool
  | .publisher => !e.killed && e.code == some 0
  | .subscriber => !e.killed && (e.code == some 0 || e.code == some Fleet.stoppedCode)

/-- A record with what an output says. -/
def Finding.takenOver : Finding τ → Record τ π → Record τ π
  | .report told, r => { r with sent := some told.sent, elapsed := some told.elapsed }
  | .count (.ok sent), r => { r with sent := some sent }
  | _, r => r

/-- What is read from the output of a process. That of a killed one is not looked at. -/
def Exit.finding (τ : Type) [Seconds τ] (e : Exit π) : Finding τ :=
  if e.killed then .nothing else findReport (e.output.getD "")

/-- The record of a process that ended so. -/
def Exit.closed [Seconds τ] (e : Exit π) (role : Role) (r : Record τ π)
    (error : Option String) : Record τ π :=
  { (e.finding τ).takenOver r with
    status := if e.succeeds role then .success else .failure, returncode := e.code, error }

/-- What a machine may give for the output of a process. -/
def Host.Gives (h : Host τ σ π) (output : Option String) : Prop :=
  ∃ p code, (∃ s t, h.collect p s = (.ok (output, code), t)) ∨
    ∃ limit s t, h.collectWithin p limit s = (.ok (some (output, code)), t)

/-- The deeds that are only remarks: log records, and readings of outputs that were `heard`. -/
def Deed.Remarks (heard : Option String → Prop) : Deed τ π → Prop
  | .log _ => True
  | .read _ output => heard output
  | _ => False

section Finding

variable (found : Finding τ) (r : Record τ π)

@[simp] theorem Finding.takenOver_role : (found.takenOver r).role = r.role := by
  unfold takenOver
  split <;> rfl

@[simp] theorem Finding.takenOver_index : (found.takenOver r).index = r.index := by
  unfold takenOver
  split <;> rfl

@[simp] theorem Finding.takenOver_process : (found.takenOver r).process = r.process := by
  unfold takenOver
  split <;> rfl

@[simp] theorem Finding.takenOver_status : (found.takenOver r).status = r.status := by
  unfold takenOver
  split <;> rfl

theorem Finding.takenOver_settled : (found.takenOver r).settled = r.settled := by
  simp [Record.settled]

end Finding

section Closed

variable [Seconds τ] (e : Exit π) (role : Role) (r : Record τ π) (error : Option String)

@[simp] theorem Exit.closed_role : (e.closed role r error).role = r.role := by
  simp [closed]

@[simp] theorem Exit.closed_index : (e.closed role r error).index = r.index := by
  simp [closed]

@[simp] theorem Exit.closed_process : (e.closed role r error).process = r.process := by
  simp [closed]

@[simp] theorem Exit.closed_returncode : (e.closed role r error).returncode = e.code := rfl

theorem Exit.settled_closed : (e.closed role r error).settled = true := by
  unfold closed Record.settled
  split <;> rfl

theorem Exit.closed_success_iff :
    (e.closed role r error).status = .success ↔ e.succeeds role = true := by
  unfold closed
  split <;> simp_all

end Closed

namespace Fleet

/-! ## §2 Contracts of the parts of a round -/

/-- All that was read between two worlds had been given by the machine. -/
def Heard (h : Host τ σ π) (w u : World τ σ π) : Prop :=
  ∀ i output, .read i output ∈ u.trail → .read i output ∈ w.trail ∨ h.Gives output

/-- The contract of a part of a round that begins in the world `w`: how it may end with a value, and
that it reads nothing but what the machine gave, even if it fails. -/
def Turns (h : Host τ σ π) (w : World τ σ π) (a : Act τ σ π α) (Q : α → World τ σ π → Prop) : Prop :=
  a.Meets (· = w) (fun x u => Heard h w u ∧ Q x u) (Action.Faulty fun _ u => Heard h w u)

variable {h : Host τ σ π} {u v w : World τ σ π}

theorem Heard.refl : Heard h w w := fun _ _ => .inl

theorem Heard.trans (huv : Heard h u v) (hvw : Heard h v w) : Heard h u w := by
  intro i output hread
  rcases hvw i output hread with hread | hgives
  · exact huv i output hread
  · exact .inr hgives

theorem heard_of_trail {d : Deed τ π} (htrail : u.trail = d :: w.trail)
    (hd : ∀ i output, d = .read i output → h.Gives output) : Heard h w u := by
  intro i output hread
  rw [htrail] at hread
  rcases List.mem_cons.1 hread with hread | hread
  · exact .inr (hd i output hread.symm)
  · exact .inl hread

namespace Turns

variable {Q : α → World τ σ π → Prop}

theorem post {Q' : α → World τ σ π → Prop} {a : Act τ σ π α} (ha : Turns h w a Q)
    (hQ : ∀ x u, Q x u → Q' x u) : Turns h w a Q' :=
  ha.mono (fun _ => id) (fun x u hu => ⟨hu.1, hQ x u hu.2⟩) fun _ _ => id

/-- Two parts in a row. -/
theorem bind {R : β → World τ σ π → Prop} {x : Act τ σ π β} {f : β → Act τ σ π α}
    (hx : Turns h w x R) (hf : ∀ b v, R b v → Turns h v (f b) Q) : Turns h w (x >>= f) Q := by
  refine Action.Meets.bind hx fun b => Action.Meets.of_eq ?_
  intro v hyp
  obtain ⟨hheard, hv⟩ := hyp
  refine (hf b v hv).mono (fun _ => id) ?_ (Action.Faulty.mono ?_)
  · exact fun x u hu => ⟨hheard.trans hu.1, hu.2⟩
  · exact fun f u hu => hheard.trans hu

theorem discard {R : World τ σ π → Prop} {a : Act τ σ π α} (ha : Turns h w a fun _ => R) :
    Turns h w (Functor.discard a) fun _ => R :=
  Action.Meets.discard ha

theorem pure {a : α} (hQ : Q a w) : Turns h w (Pure.pure a : Act τ σ π α) Q := by
  apply Action.Meets.pure
  intro _ heq
  subst heq
  exact ⟨.refl, hQ⟩

theorem fail {f : Fault} : Turns h w (Action.fail f : Act τ σ π α) Q := by
  apply Action.Meets.fail
  intro _ heq
  subst heq
  exact Heard.refl

theorem ite {c : Prop} [Decidable c] {a b : Act τ σ π α} (ha : c → Turns h w a Q)
    (hb : ¬ c → Turns h w b Q) : Turns h w (if c then a else b) Q := by
  by_cases hc : c
  · rw [if_pos hc]
    exact ha hc
  · rw [if_neg hc]
    exact hb hc

/-- Looking up a record changes nothing. -/
theorem recordAt? {i : Nat} {f : Option (Record τ π) → Act τ σ π α}
    (hf : Turns h w (f (w.record? i)) Q) : Turns h w (Fleet.recordAt? i >>= f) Q := by
  intro _ heq
  subst heq
  exact hf _ rfl

theorem log (level : Level) (text : String) :
    Turns h w (Fleet.log level text) fun _ u => ∃ record, u = w.noted (.log record) := by
  intro _ heq
  subst heq
  exact ⟨heard_of_trail rfl (by simp), _, rfl⟩

theorem settle (i : Nat) (status : Status) (returncode : Option Int) (error : Option String) :
    Turns h w (Fleet.settle i status returncode error) fun _ u =>
      u = (w.noted (.settle i status returncode error)).changed i
        fun r => r.settle status returncode error := by
  intro _ heq
  subst heq
  exact ⟨heard_of_trail rfl (by simp), rfl⟩

theorem changeRecord (i : Nat) (f : Record τ π → Record τ π) :
    Turns h w (Fleet.changeRecord i f) fun _ u => u = w.changed i f := by
  intro _ heq
  subst heq
  exact ⟨.refl, rfl⟩

/-- A call gives what the machine answers. -/
theorem act {d : Deed τ π} {f : σ → Except Fault α × σ} (hd : ∀ i output, d ≠ .read i output) :
    Turns h w (Fleet.act d f) fun a u =>
      ∃ env, f w.state.env = (.ok a, env) ∧ u = w.after d env := by
  intro v heq
  subst heq
  have hheard : ∀ env, Heard h v (v.after d env) :=
    fun env => heard_of_trail rfl fun i output hread => absurd hread (hd i output)
  rw [act_run]
  cases hanswer : f v.state.env with
  | mk answer env =>
    cases answer with
    | ok a => exact ⟨hheard env, env, rfl, rfl⟩
    | error fault => exact hheard env

theorem now [Seconds τ] (y : Yard τ σ π) :
    Turns y.host w (Fleet.now y) fun clock u =>
      ∃ s, y.host.now w.state.env = (.ok clock, s) ∧ u = w.after .readClock s :=
  act (by simp)

end Turns

/-! ## §3 What becomes of a record -/

variable [Seconds τ] {y : Yard τ σ π} {p : π} {i : Nat} {r : Record τ π} {e : Exit π} {role : Role}
  {heard : Option String → Prop}

/-- The time that is left until a deadline, which is never less than none. -/
def remaining (deadline clock : τ) : τ := Seconds.max Seconds.zero (Seconds.sub deadline clock)

omit [Seconds τ] in
theorem remaining_nonneg (deadline clock : Rat) : 0 ≤ remaining deadline clock :=
  (clamped_max _).nonneg

omit [Seconds τ] in
/-- A record has taken over what was found in an output. Only remarks are noted. -/
structure Reports (heard : Option String → Prop) (found : Finding τ) (i : Nat)
    (w u : World τ σ π) : Prop where
  env : u.state.env = w.state.env
  records : u.state.records = w.state.records.modify i found.takenOver
  trail : ∃ before, u.trail = before ++ w.trail ∧ ∀ d ∈ before, d.Remarks heard

/-- The record of a process that ended is settled. Only remarks are noted besides. -/
structure Closes (role : Role) (heard : Option String → Prop) (e : Exit π) (i : Nat)
    (r : Record τ π) (w u : World τ σ π) : Prop where
  env : u.state.env = w.state.env
  settled : ∃ error before later,
    u.state.records = w.state.records.set i (e.closed role r error) ∧
    u.trail = later ++
      .settle i (e.closed role r error).status e.code error :: (before ++ w.trail) ∧
    (∀ d ∈ before, d.Remarks heard) ∧ ∀ d ∈ later, d.Remarks heard

omit [Seconds τ] in
/-- What says nothing changes nothing. -/
theorem Reports.silent {found : Finding τ} (hfound : ∀ r : Record τ π, found.takenOver r = r) :
    Reports heard found i w w where
  env := rfl
  records := by
    have hid : (found.takenOver : Record τ π → Record τ π) = id := funext hfound
    rw [hid, List.modify_id]
  trail := ⟨[], rfl, by simp⟩

/-- The output of a killed process is not looked at, and one that was not caught says nothing. -/
theorem reports_silent (hsilent : e.killed = true ∨ e.output = none) :
    Reports heard (e.finding τ) i w w := by
  apply Reports.silent
  intro r
  rcases hsilent with hkilled | hnone
  · simp only [Exit.finding, hkilled]
    rfl
  · cases hkilled : e.killed with
    | true =>
      simp only [Exit.finding, hkilled]
      rfl
    | false =>
      simp only [Exit.finding, hkilled, hnone]
      rfl

omit [Seconds τ] in
theorem Reports.noted {found : Finding τ} (hu : Reports heard found i w u) {d : Deed τ π}
    (hd : d.Remarks heard) : Reports heard found i w (u.noted d) where
  env := hu.env
  records := hu.records
  trail := by
    obtain ⟨before, hbefore, hremarks⟩ := hu.trail
    refine ⟨d :: before, congrArg (d :: ·) hbefore, ?_⟩
    exact List.forall_mem_cons.2 ⟨hd, hremarks⟩

omit [Seconds τ] in
theorem Reports.logged {found : Finding τ} (hu : Reports heard found i w u) (record : LogRecord) :
    Reports heard found i w (u.noted (.log record)) :=
  hu.noted trivial

omit [Seconds τ] in
theorem World.set_eq_modify {f : Record τ π → Record τ π} (hr : w.record? i = some r) :
    w.state.records.modify i f = w.state.records.set i (f r) := by
  have hget : w.state.records[i]? = some r := hr
  simp [List.modify_eq_set_getElem?, hget]

/-- Settling the record after what was found in its output. -/
theorem Reports.closes (hu : Reports heard (e.finding τ) i w u) (hr : w.record? i = some r)
    (hopen : r.settled = false) (role : Role) {status : Status}
    (hstatus : status = if e.succeeds role then .success else .failure) (error : Option String) :
    Closes role heard e i r w ((u.noted (.settle i status e.code error)).changed i
      fun r => r.settle status e.code error) where
  env := hu.env
  settled := by
    obtain ⟨before, hbefore, hremarks⟩ := hu.trail
    refine ⟨error, before, [], ?_, ?_, hremarks, by simp⟩
    · have hclosed : ((e.finding τ).takenOver r).settle status e.code error =
          e.closed role r error := by
        rw [Record.settle_of_unsettled (by rw [Finding.takenOver_settled, hopen]), hstatus]
        rfl
      -- both changes are made to the same record
      rw [World.changed, World.noted_state, hu.records, List.modify_modify_eq,
        World.set_eq_modify hr, ← hclosed]
      rfl
    · rw [World.changed_trail, World.noted_trail, hbefore, hstatus]
      rfl

theorem Closes.logged (hu : Closes role heard e i r w u) (record : LogRecord) :
    Closes role heard e i r w (u.noted (.log record)) where
  env := hu.env
  settled := by
    obtain ⟨error, before, later, hrecords, htrail, hbefore, hlater⟩ := hu.settled
    refine ⟨error, before, .log record :: later, hrecords, congrArg (_ :: ·) htrail, hbefore, ?_⟩
    exact List.forall_mem_cons.2 ⟨trivial, hlater⟩

/-! ## §4 Waiting for a publisher -/

/-- How collecting a publisher ended: with what it gave, or with nothing if it is still running, and
the world it left. A publisher that has exited is collected even when no time is left. -/
inductive Collected (y : Yard τ σ π) (p : π) (deadline : τ) (w : World τ σ π) :
    Option (Option String × ExitCode) → World τ σ π → Prop where
  | ended {code : Int} {a : Option String × ExitCode} {s t : σ}
      (hpoll : y.host.poll p w.state.env = (.ok (some code), s))
      (hcollect : y.host.collect p s = (.ok a, t)) :
      Collected y p deadline w (some a) ((w.after (.poll p) s).after (.collect p none) t)
  | inTime {clock : τ} {a : Option String × ExitCode} {q s t : σ}
      (hpoll : y.host.poll p w.state.env = (.ok none, q)) (hnow : y.host.now q = (.ok clock, s))
      (hcollect : y.host.collectWithin p (remaining deadline clock) s = (.ok (some a), t)) :
      Collected y p deadline w (some a)
        (((w.after (.poll p) q).after .readClock s).after
          (.collect p (some (remaining deadline clock))) t)
  | atLast {clock : τ} {code : Int} {a : Option String × ExitCode} {q s t s' t' : σ}
      (hpoll : y.host.poll p w.state.env = (.ok none, q)) (hnow : y.host.now q = (.ok clock, s))
      (hcollect : y.host.collectWithin p (remaining deadline clock) s = (.ok none, t))
      (hpoll' : y.host.poll p t = (.ok (some code), s'))
      (hcollect' : y.host.collect p s' = (.ok a, t')) :
      Collected y p deadline w (some a)
        (((((w.after (.poll p) q).after .readClock s).after
          (.collect p (some (remaining deadline clock))) t).after (.poll p) s').after
          (.collect p none) t')
  | running {clock : τ} {q s t s' : σ}
      (hpoll : y.host.poll p w.state.env = (.ok none, q)) (hnow : y.host.now q = (.ok clock, s))
      (hcollect : y.host.collectWithin p (remaining deadline clock) s = (.ok none, t))
      (hpoll' : y.host.poll p t = (.ok none, s')) :
      Collected y p deadline w none
        ((((w.after (.poll p) q).after .readClock s).after
          (.collect p (some (remaining deadline clock))) t).after (.poll p) s')

/-- How the exit of a publisher's process is got to know: it is collected, or killed first. -/
inductive Parted (y : Yard τ σ π) (p : π) (deadline : τ) (w : World τ σ π) :
    Exit π → World τ σ π → Prop where
  | exited {output : Option String} {code : ExitCode} {v : World τ σ π}
      (hcollected : Collected y p deadline w (some (output, code)) v) :
      Parted y p deadline w ⟨p, false, output, code⟩ v
  | killed {output : Option String} {code : ExitCode} {v : World τ σ π} {s t : σ}
      (hrunning : Collected y p deadline w none v)
      (hkill : y.host.kill p v.state.env = (.ok (), s))
      (hcollect : y.host.collect p s = (.ok (output, code), t)) :
      Parted y p deadline w ⟨p, true, output, code⟩
        ((v.after (.kill p) s).after (.collect p none) t)

/-- What a round of waiting for publishers leaves. -/
inductive Joined (y : Yard τ σ π) (deadline : τ) (i : Nat) (w : World τ σ π) :
    World τ σ π → Prop where
  | passed (hsettled : ∀ r, w.record? i = some r → r.settled = true) : Joined y deadline i w w
  | closed {r : Record τ π} {p : π} {e : Exit π} {v u : World τ σ π}
      (hr : w.record? i = some r) (hopen : r.settled = false) (hprocess : r.process = some p)
      (hparted : Parted y p deadline w e v)
      (hcloses : Closes .publisher (· = e.output) e i r v u) : Joined y deadline i w u

theorem Collected.records {deadline : τ} {found : Option (Option String × ExitCode)}
    (hcollected : Collected y p deadline w found v) : v.state.records = w.state.records := by
  cases hcollected <;> rfl

theorem Collected.gives {deadline : τ} {output : Option String} {code : ExitCode}
    (hcollected : Collected y p deadline w (some (output, code)) v) : y.host.Gives output := by
  cases hcollected with
  | ended _ hcollect => exact ⟨p, code, .inl ⟨_, _, hcollect⟩⟩
  | inTime _ _ hcollect => exact ⟨p, code, .inr ⟨_, _, _, hcollect⟩⟩
  | atLast _ _ _ _ hcollect => exact ⟨p, code, .inl ⟨_, _, hcollect⟩⟩

/-- Collecting a publisher. -/
theorem collect_turns (y : Yard τ σ π) (p : π) (deadline : τ) (w : World τ σ π) :
    Turns y.host w (collect y p deadline) (Collected y p deadline w) := by
  unfold collect
  refine (Turns.act (by simp)).bind fun found _ hyp => ?_
  obtain ⟨q, hpoll, rfl⟩ := hyp
  cases found with
  | some code =>
    refine (Turns.act (by simp)).bind fun a _ hyp => ?_
    obtain ⟨t, hcollect, rfl⟩ := hyp
    exact Turns.pure (.ended hpoll hcollect)
  | none =>
    -- it still runs: its output is waited for until the deadline
    refine (Turns.now y).bind fun clock _ hyp => ?_
    obtain ⟨s, hnow, rfl⟩ := hyp
    refine (Turns.act (by simp)).bind fun found _ hyp => ?_
    obtain ⟨t, hcollect, rfl⟩ := hyp
    cases found with
    | some a => exact Turns.pure (.inTime hpoll hnow hcollect)
    | none =>
      -- the time is over, but it may have exited just then
      refine (Turns.act (by simp)).bind fun found _ hyp => ?_
      obtain ⟨s', hpoll', rfl⟩ := hyp
      cases found with
      | some code =>
        refine (Turns.act (by simp)).bind fun a _ hyp => ?_
        obtain ⟨t', hcollect', rfl⟩ := hyp
        exact Turns.pure (.atLast hpoll hnow hcollect hpoll' hcollect')
      | none => exact Turns.pure (.running hpoll hnow hcollect hpoll')

/-- Taking over what a publisher's output says. -/
theorem readOutput_turns (h : Host τ σ π) (i : Nat) (record : Record τ π) {output : Option String}
    (hgives : h.Gives output) (w : World τ σ π) :
    Turns h w (readOutput i record output)
      fun _ u => Reports (· = output) (findReport (output.getD "") : Finding τ) i w u := by
  -- the output is read before it is looked at
  have hread : Turns h w (Traced.note (.read i output)) fun _ u => u = w.noted (.read i output) := by
    intro _ heq
    subst heq
    refine ⟨heard_of_trail rfl ?_, rfl⟩
    intro j output' heq
    cases heq
    exact hgives
  have hremarks : ∀ d ∈ [(.read i output : Deed τ π)], d.Remarks (· = output) :=
    List.forall_mem_singleton.2 rfl
  have hsilent : ∀ found : Finding τ, (∀ r : Record τ π, found.takenOver r = r) →
      Reports (· = output) found i w (w.noted (.read i output)) :=
    fun found hfound => (Reports.silent hfound).noted (hremarks _ (List.mem_cons_self ..))
  have hreports : ∀ found : Finding τ, Reports (· = output) found i w
      ((w.noted (.read i output)).changed i found.takenOver) :=
    fun found => ⟨rfl, rfl, [.read i output], rfl, hremarks⟩
  unfold readOutput
  refine hread.bind fun _ u heq => ?_
  subst heq
  cases hfind : (findReport (output.getD "") : Finding τ) with
  | nothing => exact Turns.pure (hsilent _ fun _ => rfl)
  | report told => exact (Turns.changeRecord i _).post fun _ u heq => heq ▸ hreports (.report told)
  | unreadable line =>
    refine (Turns.log _ _).post fun _ u hyp => ?_
    obtain ⟨record, rfl⟩ := hyp
    exact (hsilent _ fun _ => rfl).logged record
  | count sent =>
    cases sent with
    | error f => exact Turns.bind (R := fun _ _ => False) Turns.fail fun _ _ hyp => hyp.elim
    | ok n =>
      refine (Turns.pure (Q := fun sent u => sent = n ∧ u = _) ⟨rfl, rfl⟩).bind fun _ _ hyp => ?_
      obtain ⟨rfl, rfl⟩ := hyp
      exact (Turns.changeRecord i _).post fun _ u heq => heq ▸ hreports (.count (.ok _))

/-- A round of waiting for publishers. -/
theorem joinOne_turns (y : Yard τ σ π) (limit deadline : τ) (i : Nat) (w : World τ σ π) :
    Turns y.host w (joinOne y limit deadline i) fun _ u => Joined y deadline i w u := by
  unfold joinOne
  apply Turns.recordAt?
  cases hr : w.record? i with
  | none => exact Turns.pure (.passed fun r hr' => nomatch hr.symm.trans hr')
  | some r =>
    refine Turns.ite ?_ ?_
    · intro hsettled
      apply Turns.pure
      apply Joined.passed
      intro r' hr'
      obtain rfl : r = r' := Option.some.inj (hr.symm.trans hr')
      exact hsettled
    · intro hsettled
      have hopen : r.settled = false := by simpa using hsettled
      cases hprocess : r.process with
      | none => exact Turns.fail
      | some p =>
        refine (collect_turns y p deadline w).bind fun found v hcollected => ?_
        have hv : v.record? i = some r := by rw [World.record?_congr hcollected.records, hr]
        cases found with
        | none =>
          -- the time is over: kill, collect what is left, and settle
          refine (Turns.act (by simp)).bind fun _ _ hyp => ?_
          obtain ⟨s, hkill, rfl⟩ := hyp
          refine (Turns.act (by simp)).bind fun a _ hyp => ?_
          obtain ⟨t, hcollect, rfl⟩ := hyp
          refine (Turns.log _ _).bind fun _ _ hyp => ?_
          obtain ⟨record, rfl⟩ := hyp
          refine (Turns.settle _ _ _ _).post fun _ _ heq => ?_
          subst heq
          refine .closed hr hopen hprocess (.killed hcollected hkill hcollect) ?_
          exact ((reports_silent (e := ⟨p, true, a.1, a.2⟩) (.inl rfl)).logged record).closes
            (by exact hv) hopen .publisher (by rfl) _
        | some a =>
          -- it ended in time: what it wrote is read before its exit code is looked at
          obtain ⟨output, code⟩ := a
          refine (readOutput_turns y.host i r hcollected.gives v).bind fun _ u hreports => ?_
          have hclosed : ∀ {u' : World τ σ π},
              Closes .publisher (· = output) ⟨p, false, output, code⟩ i r v u' →
              Joined y deadline i w u' :=
            fun hcloses => .closed hr hopen hprocess (.exited hcollected) hcloses
          refine Turns.ite ?_ ?_
          · intro hcode
            refine (Turns.settle _ _ _ _).bind fun _ _ heq => ?_
            subst heq
            apply Turns.recordAt?
            refine (Turns.log _ _).post fun _ _ hyp => ?_
            obtain ⟨record, rfl⟩ := hyp
            refine hclosed (Closes.logged ?_ record)
            exact hreports.closes hv hopen .publisher (by simp [Exit.succeeds, hcode]) none
          · intro hcode
            refine (Turns.log _ _).bind fun _ _ hyp => ?_
            obtain ⟨record, rfl⟩ := hyp
            refine (Turns.settle _ _ _ _).post fun _ _ heq => ?_
            subst heq
            apply hclosed
            exact (hreports.logged record).closes hv hopen .publisher
              (by simp [Exit.succeeds, hcode]) _

/-! ## §5 Stopping a subscriber -/

/-- What a request to stop leaves: a record that is settled or has no process is passed over, one
whose process has exited is spared, and any other process is asked, which may be gone by then. -/
inductive Requested (y : Yard τ σ π) (i : Nat) (w : World τ σ π) : Bool → World τ σ π → Prop where
  | passed (hidle : Idle i w) : Requested y i w false w
  | spared {p : π} {code : Int} {s : σ} (hbusy : Busy i p w)
      (hpoll : y.host.poll p w.state.env = (.ok (some code), s)) :
      Requested y i w false (w.after (.poll p) s)
  | asked {p : π} {s t : σ} (hbusy : Busy i p w)
      (hpoll : y.host.poll p w.state.env = (.ok none, s))
      (hterminate : y.host.terminate p s = (.ok (), t)) :
      Requested y i w true ((w.after (.poll p) s).after (.terminate p) t)
  | gone {p : π} {f : Fault} {s t : σ} (hbusy : Busy i p w)
      (hpoll : y.host.poll p w.state.env = (.ok none, s))
      (hterminate : y.host.terminate p s = (.error f, t)) (hgone : f.saysGone = true) :
      Requested y i w false ((w.after (.poll p) s).after (.terminate p) t)

/-- How the exit of a subscriber's process is got to know: it is waited for, or killed first. -/
inductive Released (y : Yard τ σ π) (p : π) (deadline : τ) (w : World τ σ π) :
    Exit π → World τ σ π → Prop where
  | exited {clock : τ} {code : ExitCode} {s t : σ}
      (hnow : y.host.now w.state.env = (.ok clock, s))
      (hawait : y.host.awaitWithin p (remaining deadline clock) s = (.ok (some code), t)) :
      Released y p deadline w ⟨p, false, none, code⟩
        ((w.after .readClock s).after (.await p (some (remaining deadline clock))) t)
  | killed {clock : τ} {code : ExitCode} {s t s' t' : σ}
      (hnow : y.host.now w.state.env = (.ok clock, s))
      (hawait : y.host.awaitWithin p (remaining deadline clock) s = (.ok none, t))
      (hkill : y.host.kill p t = (.ok (), s')) (hawait' : y.host.await p s' = (.ok code, t')) :
      Released y p deadline w ⟨p, true, none, code⟩
        ((((w.after .readClock s).after (.await p (some (remaining deadline clock))) t).after
          (.kill p) s').after (.await p none) t')

/-- What a round of waiting for subscribers leaves. -/
inductive Stopped (y : Yard τ σ π) (deadline : τ) (i : Nat) (w : World τ σ π) :
    World τ σ π → Prop where
  | passed (hsettled : ∀ r, w.record? i = some r → r.settled = true) : Stopped y deadline i w w
  | closed {r : Record τ π} {p : π} {e : Exit π} {v u : World τ σ π}
      (hr : w.record? i = some r) (hopen : r.settled = false) (hprocess : r.process = some p)
      (hreleased : Released y p deadline w e v)
      (hcloses : Closes .subscriber (fun _ => False) e i r v u) : Stopped y deadline i w u

/-- A request that comes too late is no fault. -/
theorem request_turns (y : Yard τ σ π) (p : π) :
    Turns y.host w
      (Action.recover
        (do
          act (.terminate p) (y.host.terminate p)
          return true)
        fun f => if f.saysGone then some (pure false) else none)
      fun asked u =>
        (∃ t, y.host.terminate p w.state.env = (.ok (), t) ∧ asked = true ∧
          u = w.after (.terminate p) t) ∨
        ∃ f t, y.host.terminate p w.state.env = (.error f, t) ∧ f.saysGone = true ∧
          asked = false ∧ u = w.after (.terminate p) t := by
  intro v heq
  subst heq
  have hheard : ∀ t, Heard y.host v (v.after (.terminate p) t) :=
    fun t => heard_of_trail rfl (by simp)
  simp only [Action.recover, Action.runFrom_ofFunction, Action.runFrom_bind, act_run]
  cases hanswer : y.host.terminate p v.state.env with
  | mk answer t =>
    cases answer with
    | ok _ => exact ⟨hheard t, .inl ⟨t, rfl, rfl, rfl⟩⟩
    | error f =>
      cases hgone : f.saysGone with
      | true =>
        simp only [hgone, if_true]
        exact ⟨hheard t, .inr ⟨f, t, rfl, hgone, rfl, rfl⟩⟩
      | false =>
        simp only [hgone]
        exact hheard t

/-- A request to stop. -/
theorem terminate_turns (y : Yard τ σ π) (i : Nat) (w : World τ σ π) :
    Turns y.host w (terminate y i) (Requested y i w) := by
  unfold terminate
  apply Turns.recordAt?
  cases hr : w.record? i with
  | none => exact Turns.pure (.passed (idle_of_none hr))
  | some r =>
    cases hopen : r.settled with
    | true =>
      simp only [hopen]
      exact Turns.pure (.passed (idle_of_some hr (.inl hopen)))
    | false =>
      cases hprocess : r.process with
      | none =>
        simp only [hopen, hprocess]
        exact Turns.pure (.passed (idle_of_some hr (.inr hprocess)))
      | some p =>
        have hbusy : Busy i p w := ⟨r, hr, hopen, hprocess⟩
        simp only [hopen, hprocess]
        refine (Turns.act (by simp)).bind fun found _ hyp => ?_
        obtain ⟨s, hpoll, rfl⟩ := hyp
        cases found with
        | some code => exact Turns.pure (.spared hbusy hpoll)
        | none =>
          refine (request_turns y p).post fun asked _ hyp => ?_
          -- the request itself may come too late
          rcases hyp with ⟨t, hterminate, rfl, rfl⟩ | ⟨f, t, hterminate, hgone, rfl, rfl⟩
          · exact .asked hbusy hpoll hterminate
          · exact .gone hbusy hpoll hterminate hgone

/-- A round of waiting for subscribers. -/
theorem stopOne_turns (y : Yard τ σ π) (deadline : τ) (i : Nat) (w : World τ σ π) :
    Turns y.host w (stopOne y deadline i) fun _ u => Stopped y deadline i w u := by
  unfold stopOne
  apply Turns.recordAt?
  cases hr : w.record? i with
  | none => exact Turns.pure (.passed fun r hr' => nomatch hr.symm.trans hr')
  | some r =>
    refine Turns.ite ?_ ?_
    · intro hsettled
      apply Turns.pure
      apply Stopped.passed
      intro r' hr'
      obtain rfl : r = r' := Option.some.inj (hr.symm.trans hr')
      exact hsettled
    · intro hsettled
      have hopen : r.settled = false := by simpa using hsettled
      cases hprocess : r.process with
      | none => exact Turns.fail
      | some p =>
        refine (Turns.now y).bind fun clock _ hyp => ?_
        obtain ⟨s, hnow, rfl⟩ := hyp
        refine (Turns.act (by simp)).bind fun found _ hyp => ?_
        obtain ⟨t, hawait, rfl⟩ := hyp
        cases found with
        | none =>
          -- the time is over: kill, wait for the end, and settle
          refine (Turns.act (by simp)).bind fun _ _ hyp => ?_
          obtain ⟨s', hkill, rfl⟩ := hyp
          refine (Turns.act (by simp)).bind fun code _ hyp => ?_
          obtain ⟨t', hawait', rfl⟩ := hyp
          refine (Turns.log _ _).bind fun _ _ hyp => ?_
          obtain ⟨record, rfl⟩ := hyp
          refine (Turns.settle _ _ _ _).post fun _ _ heq => ?_
          subst heq
          refine .closed hr hopen hprocess (.killed hnow hawait hkill hawait') ?_
          exact ((reports_silent (e := ⟨p, true, none, code⟩) (.inl rfl)).logged record).closes
            (by exact hr) hopen .subscriber (by rfl) _
        | some code =>
          have hreleased : Released y p deadline w ⟨p, false, none, code⟩ _ := .exited hnow hawait
          have hsilent : ∀ v : World τ σ π, Reports (fun _ => False)
              (Exit.finding τ (⟨p, false, none, code⟩ : Exit π)) i v v :=
            fun _ => reports_silent (.inr rfl)
          -- its exit code tells whether it was stopped as it should be
          refine Turns.ite ?_ ?_
          · intro hcode
            have hstatus : Status.success = if (⟨p, false, none, code⟩ : Exit π).succeeds
                .subscriber then .success else .failure := by simp [Exit.succeeds, hcode]
            refine (Turns.settle _ _ _ _).post fun _ _ heq => ?_
            subst heq
            refine .closed hr hopen hprocess hreleased ?_
            exact (hsilent _).closes (by exact hr) hopen .subscriber hstatus none
          · intro hcode
            have hstatus : Status.failure = if (⟨p, false, none, code⟩ : Exit π).succeeds
                .subscriber then .success else .failure := by simp [Exit.succeeds, hcode]
            refine (Turns.log _ _).bind fun _ _ hyp => ?_
            obtain ⟨record, rfl⟩ := hyp
            refine (Turns.settle _ _ _ _).post fun _ _ heq => ?_
            subst heq
            refine .closed hr hopen hprocess hreleased ?_
            exact ((hsilent _).logged record).closes (by exact hr) hopen .subscriber hstatus _

end Fleet

end BrokerLoad
