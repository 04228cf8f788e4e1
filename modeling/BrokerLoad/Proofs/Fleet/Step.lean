import BrokerLoad.Fleet.Run
import BrokerLoad.Proofs.Contract
import Mathlib.Logic.Relation

/-!
# The steps of a run

A run is a long program, but there are only a few kinds of single steps that it takes: it calls the
machine, opens a record, gives a process or a report to an open record, and settles one. Here these
steps are a relation between worlds, a world being the state of a run with its trail. Whatever every
step keeps holds at every point of a run, also at the point where a fault cuts it.

## Main definitions

* `Host.perform`: what a deed does to the machine.
* `Fates`, `Host.Respects`: what is known of the processes, and the machines for which it is true.
* `Record.Keeps`: how a record may go on: its outcome, once it is settled, never changes.
* `Fleet.Step`, `Fleet.Path`: single steps, and any number of them.

## Main statements

* `Fleet.Path.keeps`: along a path every record goes on as `Record.Keeps` says.
* `Fleet.Path.trail`: a path adds deeds to the trail, and only those that it may do.
-/

namespace BrokerLoad

variable {τ σ π : Type}

/-! ## §1 Calls on the machine -/

/-- The end of a call without its value. -/
def bare {α : Type} (e : Except Fault α × σ) : Except Fault Unit × σ :=
  (e.1.map fun _ => (), e.2)

/-- What a deed does to the machine, and whether it raises. A deed that is no call does nothing. -/
def Host.perform (h : Host τ σ π) : Deed τ π → σ → Except Fault Unit × σ
  | .readClock, s => bare (h.now s)
  | .sleep duration, s => bare (h.sleep duration s)
  | .launch argv capture, s => bare (h.launch argv capture s)
  | .poll p, s => bare (h.poll p s)
  | .collect p none, s => bare (h.collect p s)
  | .collect p (some limit), s => bare (h.collectWithin p limit s)
  | .await p none, s => bare (h.await p s)
  | .await p (some limit), s => bare (h.awaitWithin p limit s)
  | .terminate p, s => bare (h.terminate p s)
  | .kill p, s => bare (h.kill p s)
  | .misprint cause, s => bare (h.misprint cause, s)
  | _, s => (.ok (), s)

/-- The deeds of logging: a record, or why it could not be put together. -/
def Deed.Logs : Deed τ π → Prop
  | .log _ | .misprint _ => True
  | _ => False

/-- What the state of a machine tells about processes: which ones the launcher has returned, which
are bound to end, and which have exited. -/
structure Fates (σ π : Type) where
  launched : σ → π → Prop
  ending : σ → π → Prop
  exited : σ → π → Prop

/-- A machine for which the fates are true. Only the launcher returns processes; a process that was
found to have exited or was killed is bound to end; a wait that returns means that the process has
exited. None of this is ever undone. -/
structure Host.Respects (h : Host τ σ π) (F : Fates σ π) : Prop where
  launched : ∀ {d : Deed τ π} {s : σ} {p : π}, F.launched (h.perform d s).2 p →
    F.launched s p ∨ ∃ argv capture, d = .launch argv capture ∧ (h.launch argv capture s).1 = .ok p
  stays_ending : ∀ {s : σ} {p : π} (d : Deed τ π), F.ending s p → F.ending (h.perform d s).2 p
  stays_exited : ∀ {s : σ} {p : π} (d : Deed τ π), F.exited s p → F.exited (h.perform d s).2 p
  poll : ∀ {p : π} {s t : σ} {code : Int}, h.poll p s = (.ok (some code), t) → F.ending t p
  kill : ∀ {p : π} {s t : σ}, h.kill p s = (.ok (), t) → F.ending t p
  collect : ∀ {p : π} {s t : σ} {a : Option String × ExitCode},
    h.collect p s = (.ok a, t) → F.exited t p
  collectWithin : ∀ {p : π} {limit : τ} {s t : σ} {a : Option String × ExitCode},
    h.collectWithin p limit s = (.ok (some a), t) → F.exited t p
  await : ∀ {p : π} {s t : σ} {code : ExitCode}, h.await p s = (.ok code, t) → F.exited t p
  awaitWithin : ∀ {p : π} {limit : τ} {s t : σ} {code : ExitCode},
    h.awaitWithin p limit s = (.ok (some code), t) → F.exited t p

/-- The fates that tell nothing apart. -/
def Fates.blank : Fates σ π := ⟨fun _ _ => True, fun _ _ => True, fun _ _ => True⟩

/-- Every machine respects the fates that tell nothing apart. -/
theorem Host.respects_blank (h : Host τ σ π) : h.Respects Fates.blank where
  launched _ := .inl trivial
  stays_ending _ _ := trivial
  stays_exited _ _ := trivial
  poll _ := trivial
  kill _ := trivial
  collect _ := trivial
  collectWithin _ := trivial
  await _ := trivial
  awaitWithin _ := trivial

/-- Which deeds a run does just so: a launch that fails, a wait without a limit for a process that
is bound to end, and whatever touches no record. -/
def Host.Admits (h : Host τ σ π) (F : Fates σ π) (s : σ) : Deed τ π → Prop
  | .launch argv capture => ∃ f, (h.launch argv capture s).1 = .error f
  | .collect p none | .await p none => F.ending s p
  | .enlist _ _ | .settle .. => False
  | _ => True

/-! ## §2 Records as they go on -/

namespace Record

/-- The outcome of a record. -/
def outcome (r : Record τ π) : Status × Option Int × Option String :=
  (r.status, r.returncode, r.error)

/-- How a record may go on: it keeps its role, its index and the process it has, and once it is
settled nothing changes any more. -/
structure Keeps (r s : Record τ π) : Prop where
  role : s.role = r.role
  index : s.index = r.index
  process : ∀ p, r.process = some p → s.process = some p
  settled : r.settled = true → s = r

theorem Keeps.refl (r : Record τ π) : r.Keeps r := ⟨rfl, rfl, fun _ => id, fun _ => rfl⟩

theorem Keeps.trans {r s t : Record τ π} (h : r.Keeps s) (h' : s.Keeps t) : r.Keeps t where
  role := h'.role.trans h.role
  index := h'.index.trans h.index
  process p hp := h'.process p (h.process p hp)
  settled hr := by
    -- nothing changed on the first path, so the second one began with the same record
    have hs : s = r := h.settled hr
    subst hs
    exact h'.settled hr

theorem Keeps.unsettled {r s : Record τ π} (h : r.Keeps s) (hs : s.settled = false) :
    r.settled = false := by
  cases hr : r.settled with
  | false => rfl
  | true =>
    -- a settled record stays the same
    rw [h.settled hr, hr] at hs
    cases hs

theorem keeps_of_unsettled {r s : Record τ π} (hr : r.settled = false) (role : s.role = r.role)
    (index : s.index = r.index) (process : ∀ p, r.process = some p → s.process = some p) :
    r.Keeps s where
  role := role
  index := index
  process := process
  -- there is nothing to show for a record that is still open
  settled h := by simp [hr] at h

theorem settle_of_unsettled {r : Record τ π} (h : r.settled = false) (status : Status)
    (returncode : Option Int) (error : Option String) :
    r.settle status returncode error = { r with status, returncode, error } := by
  simp [settle, h]

@[simp] theorem settle_index (r : Record τ π) (status : Status) (returncode : Option Int)
    (error : Option String) : (r.settle status returncode error).index = r.index := by
  unfold settle; split <;> rfl

@[simp] theorem settle_process (r : Record τ π) (status : Status) (returncode : Option Int)
    (error : Option String) : (r.settle status returncode error).process = r.process := by
  unfold settle; split <;> rfl

theorem settled_settle (r : Record τ π) {status : Status} (h : status ≠ .pending)
    (returncode : Option Int) (error : Option String) :
    (r.settle status returncode error).settled = true := by
  unfold settle
  split
  · assumption
  · simpa [settled] using h

end Record

/-! ## §3 Worlds and steps -/

namespace Fleet

/-- The state of a run with its trail. -/
abbrev World (τ σ π : Type) := Traced (Deed τ π) (Fleet τ σ π)

namespace World

/-- The record at a position. -/
def record? (w : World τ σ π) (i : Nat) : Option (Record τ π) := w.state.records[i]?

/-- The world after a deed that changes nothing else. -/
def noted (w : World τ σ π) (d : Deed τ π) : World τ σ π := { w with trail := d :: w.trail }

/-- The world after a call on the machine. -/
def after (w : World τ σ π) (d : Deed τ π) (env : σ) : World τ σ π :=
  ⟨{ w.state with env }, d :: w.trail⟩

/-- The world with one more record. -/
def opened (w : World τ σ π) (r : Record τ π) : World τ σ π :=
  { w with state := { w.state with records := w.state.records ++ [r] } }

/-- The world with a record changed. -/
def changed (w : World τ σ π) (i : Nat) (f : Record τ π → Record τ π) : World τ σ π :=
  { w with state := { w.state with records := w.state.records.modify i f } }

variable (w : World τ σ π) (d : Deed τ π) (env : σ) (r : Record τ π) (i j : Nat)
  (f : Record τ π → Record τ π)

@[simp] theorem noted_state : (w.noted d).state = w.state := rfl
@[simp] theorem noted_trail : (w.noted d).trail = d :: w.trail := rfl
@[simp] theorem after_env : (w.after d env).state.env = env := rfl
@[simp] theorem after_records : (w.after d env).state.records = w.state.records := rfl
@[simp] theorem after_trail : (w.after d env).trail = d :: w.trail := rfl
@[simp] theorem opened_env : (w.opened r).state.env = w.state.env := rfl
@[simp] theorem opened_records : (w.opened r).state.records = w.state.records ++ [r] := rfl
@[simp] theorem opened_trail : (w.opened r).trail = w.trail := rfl
@[simp] theorem changed_env : (w.changed i f).state.env = w.state.env := rfl
@[simp] theorem changed_trail : (w.changed i f).trail = w.trail := rfl
@[simp] theorem changed_length :
    (w.changed i f).state.records.length = w.state.records.length := by
  simp [changed]
@[simp] theorem record?_noted : (w.noted d).record? i = w.record? i := rfl
@[simp] theorem record?_after : (w.after d env).record? i = w.record? i := rfl

variable {w i r}

theorem record?_congr {u : World τ σ π} (h : u.state.records = w.state.records) (i : Nat) :
    u.record? i = w.record? i := by
  rw [record?, record?, h]

theorem lt_of_record? (hr : w.record? i = some r) : i < w.state.records.length :=
  (List.getElem?_eq_some_iff.1 hr).1

variable (w i r)

/-- A change at a position is seen there and nowhere else. -/
theorem record?_changed :
    (w.changed i f).record? j = if i = j then (w.record? j).map f else w.record? j := by
  simp only [record?, changed, List.getElem?_modify]
  split
  · rfl
  · simp

theorem record?_changed_cases {s : Record τ π} (h : (w.changed i f).record? j = some s) :
    (i ≠ j ∧ w.record? j = some s) ∨ (i = j ∧ ∃ r, w.record? i = some r ∧ f r = s) := by
  rw [record?_changed] at h
  by_cases hij : i = j
  · subst hij
    rw [if_pos rfl, Option.map_eq_some_iff] at h
    exact .inr ⟨rfl, h⟩
  · rw [if_neg hij] at h
    exact .inl ⟨hij, h⟩

theorem record?_changed_of_ne (h : i ≠ j) : (w.changed i f).record? j = w.record? j := by
  rw [record?_changed, if_neg h]

theorem record?_changed_self : (w.changed i f).record? i = (w.record? i).map f := by
  simp [record?_changed]

/-- The new record stands at the end. -/
theorem record?_opened :
    (w.opened r).record? j = if j = w.state.records.length then some r else w.record? j := by
  simp only [record?, opened, List.getElem?_append, List.getElem?_singleton]
  split
  · rw [if_neg (by omega)]
  · by_cases hj : j = w.state.records.length
    · simp [hj]
    -- behind the new record there is nothing, as there was before
    · rw [if_neg (by omega), if_neg hj, List.getElem?_eq_none (by omega)]

theorem record?_opened_cases {s : Record τ π} (h : (w.opened r).record? j = some s) :
    w.record? j = some s ∨ (j = w.state.records.length ∧ s = r) := by
  rw [record?_opened] at h
  by_cases hj : j = w.state.records.length
  · rw [if_pos hj] at h
    exact .inr ⟨hj, (Option.some.inj h).symm⟩
  · rw [if_neg hj] at h
    exact .inl h

theorem record?_opened_of_lt (h : j < w.state.records.length) :
    (w.opened r).record? j = w.record? j := by
  rw [record?_opened, if_neg (Nat.ne_of_lt h)]

end World

/-- A single step. `ok` tells which deeds are allowed. Only open records change, and one that has a
process may only be settled when that has exited. -/
inductive Step (h : Host τ σ π) (F : Fates σ π) (ok : Deed τ π → Prop) :
    World τ σ π → World τ σ π → Prop where
  | act {w : World τ σ π} {d : Deed τ π} (hok : ok d) (hadmits : h.Admits F w.state.env d) :
      Step h F ok w (w.after d (h.perform d w.state.env).2)
  | enlist {w : World τ σ π} {role : Role} {index : Int} (hok : ok (.enlist role index)) :
      Step h F ok w ((w.noted (.enlist role index)).opened { role, index })
  | launched {w : World τ σ π} {argv : List String} {capture : Capture} {p : π} {env : σ} {i : Nat}
      {r : Record τ π} (hok : ok (.launch argv capture))
      (hanswer : h.launch argv capture w.state.env = (.ok p, env))
      (hr : w.record? i = some r) (hopen : r.settled = false) (hfree : r.process = none) :
      Step h F ok w
        ((w.after (.launch argv capture) env).changed i fun r => { r with process := some p })
  | report {w : World τ σ π} {i : Nat} {r : Record τ π} {f : Record τ π → Record τ π}
      (hr : w.record? i = some r) (hopen : r.settled = false)
      (hf : ∃ sent elapsed, f r = { r with sent, elapsed }) :
      Step h F ok w (w.changed i f)
  | settle {w : World τ σ π} {i : Nat} {r : Record τ π} {status : Status}
      {returncode : Option Int} {error : Option String}
      (hok : ok (.settle i status returncode error)) (hr : w.record? i = some r)
      (hopen : r.settled = false) (hstatus : status ≠ .pending)
      (hexited : ∀ p, r.process = some p → F.exited w.state.env p) :
      Step h F ok w ((w.noted (.settle i status returncode error)).changed i
        fun r => r.settle status returncode error)

/-- Any number of steps. -/
abbrev Path (h : Host τ σ π) (F : Fates σ π) (ok : Deed τ π → Prop) :
    World τ σ π → World τ σ π → Prop :=
  Relation.ReflTransGen (Step h F ok)

/-! ## §4 What every path keeps -/

section Path

variable {h : Host τ σ π} {F : Fates σ π} {ok ok' : Deed τ π → Prop} {u v w : World τ σ π}

theorem Step.mono (hok : ∀ d, ok d → ok' d) (hs : Step h F ok u v) : Step h F ok' u v := by
  cases hs with
  | act h1 h2 => exact .act (hok _ h1) h2
  | enlist h1 => exact .enlist (hok _ h1)
  | launched h1 h2 h3 h4 h5 => exact .launched (hok _ h1) h2 h3 h4 h5
  | report h1 h2 h3 => exact .report h1 h2 h3
  | settle h1 h2 h3 h4 h5 => exact .settle (hok _ h1) h2 h3 h4 h5

/-- A deed that is no call leaves the machine as it is. -/
theorem Step.still {d : Deed τ π} (hok : ok d) (hadmits : h.Admits F w.state.env d)
    (hstill : (h.perform d w.state.env).2 = w.state.env) : Step h F ok w (w.noted d) := by
  have hstep : Step h F ok w (w.after d (h.perform d w.state.env).2) := .act hok hadmits
  rw [hstill] at hstep
  exact hstep

theorem Step.logs {d : Deed τ π} (hd : d.Logs) (hok : ok d) : Step h F ok w (w.noted d) := by
  cases d with
  | log _ | misprint _ => exact .still hok trivial rfl
  | _ => exact absurd hd id

theorem Step.log {record : LogRecord} (hok : ok (.log record)) :
    Step h F ok w (w.noted (.log record)) :=
  .logs trivial hok

theorem Step.read {i : Nat} {output : Option String} (hok : ok (.read i output)) :
    Step h F ok w (w.noted (.read i output)) :=
  .still hok trivial rfl

theorem Step.refused {argv : List String} {capture : Capture} {f : Fault} {env : σ}
    (hok : ok (.launch argv capture))
    (hanswer : h.launch argv capture w.state.env = (.error f, env)) :
    Step h F ok w (w.after (.launch argv capture) env) := by
  -- the deed is done all the same: a launch that fails is a call
  have hstep : Step h F ok w
      (w.after (.launch argv capture) (bare (h.launch argv capture w.state.env)).2) :=
    .act hok ⟨f, by rw [hanswer]⟩
  rw [hanswer] at hstep
  exact hstep

theorem Path.mono (hok : ∀ d, ok d → ok' d) (hp : Path h F ok u v) : Path h F ok' u v := by
  induction hp with
  | refl => exact .refl
  | tail _ hs ih => exact ih.tail (hs.mono hok)

/-- Whatever every single step keeps holds at the end of a path. -/
theorem Path.invariant {I : World τ σ π → Prop} (hI : ∀ {u v}, Step h F ok u v → I u → I v)
    (hp : Path h F ok u v) (hu : I u) : I v := by
  induction hp with
  | refl => exact hu
  | tail _ hs ih => exact hI hs ih

/-- A single step lets every record go on. Only a launch gives it a process. -/
theorem Step.keeps (hs : Step h F ok u v) {i : Nat} {r : Record τ π}
    (hr : u.record? i = some r) : ∃ s, v.record? i = some s ∧ r.Keeps s ∧
      ((∀ argv capture, ¬ ok (.launch argv capture)) → s.process = r.process) := by
  -- the kinds of steps that change a record at `j` change one that is not settled
  have hchange : ∀ (w : World τ σ π) (j : Nat) (f : Record τ π → Record τ π),
      w.record? i = some r →
      (i = j → r.Keeps (f r) ∧
        ((∀ argv capture, ¬ ok (.launch argv capture)) → (f r).process = r.process)) →
      ∃ s, (w.changed j f).record? i = some s ∧ r.Keeps s ∧
        ((∀ argv capture, ¬ ok (.launch argv capture)) → s.process = r.process) := by
    intro w j f hw hf
    rw [World.record?_changed]
    by_cases hij : i = j
    · subst hij
      exact ⟨f r, by simp [hw], hf rfl⟩
    · exact ⟨r, by rw [if_neg (Ne.symm hij), hw], .refl r, fun _ => rfl⟩
  cases hs with
  -- a call touches no record
  | act _ _ => exact ⟨r, hr, .refl r, fun _ => rfl⟩
  -- the new record stands behind all the others
  | enlist _ =>
    exact ⟨r, (World.record?_opened_of_lt _ _ _ (World.lt_of_record? hr)).trans hr, .refl r,
      fun _ => rfl⟩
  -- this is the only step that gives a process, and it gives it to a record without one
  | @launched argv capture p env j r' hok _ hr' hopen hfree =>
    apply hchange _ j _ hr
    intro hij
    subst hij
    obtain rfl : r = r' := Option.some.inj (hr.symm.trans hr')
    refine ⟨Record.keeps_of_unsettled hopen rfl rfl fun q hq => ?_, fun hno => ?_⟩
    · rw [hfree] at hq
      cases hq
    · exact absurd hok (hno argv capture)
  -- a report is neither an outcome nor a process
  | @report j r' f hr' hopen hf =>
    apply hchange _ j _ hr
    intro hij
    subst hij
    obtain rfl : r = r' := Option.some.inj (hr.symm.trans hr')
    obtain ⟨sent, elapsed, hf⟩ := hf
    rw [hf]
    exact ⟨Record.keeps_of_unsettled hopen rfl rfl fun q hq => hq, fun _ => rfl⟩
  -- the outcome is set while the record is open
  | @settle j r' status returncode error _ hr' hopen _ _ =>
    apply hchange _ j _ hr
    intro hij
    subst hij
    obtain rfl : r = r' := Option.some.inj (hr.symm.trans hr')
    exact ⟨Record.keeps_of_unsettled hopen (by simp) (by simp) fun q hq => by simpa using hq,
      fun _ => by simp⟩

/-- Along a path every record goes on; once it is settled it never changes. -/
theorem Path.keeps (hp : Path h F ok u v) {i : Nat} {r : Record τ π}
    (hr : u.record? i = some r) : ∃ s, v.record? i = some s ∧ r.Keeps s ∧
      ((∀ argv capture, ¬ ok (.launch argv capture)) → s.process = r.process) := by
  induction hp with
  | refl => exact ⟨r, hr, .refl r, fun _ => rfl⟩
  | tail _ hs ih =>
    obtain ⟨s, hv, hrs, hprocess⟩ := ih
    obtain ⟨t, hw, hst, hprocess'⟩ := hs.keeps hv
    exact ⟨t, hw, hrs.trans hst, fun hno => (hprocess' hno).trans (hprocess hno)⟩

theorem Path.length_eq (hno : ∀ role index, ¬ ok (.enlist role index)) (hp : Path h F ok u v) :
    v.state.records.length = u.state.records.length := by
  refine Path.invariant (I := fun w => w.state.records.length = u.state.records.length) ?_ hp rfl
  intro v w hs hv
  cases hs with
  -- only opening a record changes how many there are
  | act _ _ => exact hv
  | enlist hok => exact absurd hok (hno _ _)
  | launched _ _ _ _ _ | report _ _ _ | settle _ _ _ _ _ => simpa using hv

theorem Path.back (hno : ∀ role index, ¬ ok (.enlist role index)) (hp : Path h F ok u v) {i : Nat}
    {s : Record τ π} (hs : v.record? i = some s) : ∃ r, u.record? i = some r ∧ r.Keeps s := by
  -- no record was opened on the way, so the position was there at the start
  have hlt : i < u.state.records.length := hp.length_eq hno ▸ World.lt_of_record? hs
  have hr : u.record? i = some u.state.records[i] := List.getElem?_eq_getElem hlt
  obtain ⟨s', hs', hkeeps, _⟩ := hp.keeps hr
  obtain rfl : s = s' := Option.some.inj (hs.symm.trans hs')
  exact ⟨_, hr, hkeeps⟩

/-- A path adds deeds to the trail, and only those that it may do. -/
theorem Path.trail (hp : Path h F ok u v) :
    ∃ new, v.trail = new ++ u.trail ∧ ∀ d ∈ new, ok d := by
  induction hp with
  | refl => exact ⟨[], rfl, by simp⟩
  | @tail v w _ hs ih =>
    obtain ⟨new, hnew, hall⟩ := ih
    -- a step adds no deed or one that is allowed
    have hstep : w.trail = v.trail ∨ ∃ d, ok d ∧ w.trail = d :: v.trail := by
      cases hs with
      | act hok _ | enlist hok | launched hok _ _ _ _ | settle hok _ _ _ _ =>
        exact .inr ⟨_, hok, rfl⟩
      | report _ _ _ => exact .inl rfl
    -- the trail is kept with the latest deed first
    rcases hstep with hw | ⟨d, hd, hw⟩
    · exact ⟨new, hw.trans hnew, hall⟩
    · refine ⟨d :: new, by rw [hw, hnew]; rfl, ?_⟩
      intro d' hd'
      rcases List.mem_cons.1 hd' with rfl | hd'
      · exact hd
      · exact hall d' hd'

end Path

end Fleet

end BrokerLoad
