import BrokerLoad.Proofs.Fleet.Loops
import BrokerLoad.Proofs.Fleet.Spawn

/-!
# The machine behind a trail

A trail tells which calls a run made, and the machine that it ran on tells what the answers were: the
calls are made again, one after the other, from the state in which the phases began. So what became of
every client can be read off the trail without looking at the records. The chronicle of a run says
that the records agree with it.

## Main definitions

* `Host.stateAfter`, `Host.launchAnswers`: the calls of a trail, made again.
* `Host.exitOf?`: how the client of a record ended.
* `Fleet.Chronicle`: the records agree with the trail.

## Main statements

* `Fleet.Chronicle.called`, `Fleet.Chronicle.spawned`, `Fleet.Chronicle.closes`: one lemma for each
  way in which a run goes on.
* `Fleet.Chronicle.joined`, `Fleet.Chronicle.requested`, `Fleet.Chronicle.stopped`: the rounds.
-/

namespace BrokerLoad

variable {τ σ π α : Type}

/-! ## §1 Calls made again -/

/-- The state of a machine after the calls of a trail, from the state `s`. -/
def Host.stateAfter (h : Host τ σ π) (s : σ) : List (Deed τ π) → σ
  | [] => s
  | d :: earlier => (h.perform d (h.stateAfter s earlier)).2

/-- What the launcher answered, the first launch first. -/
def Host.launchAnswers (h : Host τ σ π) (s : σ) : List (Deed τ π) → List (Except Fault π)
  | [] => []
  | .launch argv capture :: earlier =>
    h.launchAnswers s earlier ++ [(h.launch argv capture (h.stateAfter s earlier)).1]
  | _ :: earlier => h.launchAnswers s earlier

/-- Whether the last deed of a trail was to kill a process. -/
def Deed.endsInKill : List (Deed τ π) → Bool
  | .kill _ :: _ => true
  | _ => false

/-- How a process exited, if a trail ends, but for remarks, in a wait that gave one. -/
def Host.exit? (h : Host τ σ π) (s : σ) : List (Deed τ π) → Option (Exit π)
  | .log _ :: earlier | .read _ _ :: earlier => h.exit? s earlier
  | .collect p none :: earlier =>
    (h.collect p (h.stateAfter s earlier)).1.toOption.map fun a =>
      ⟨p, Deed.endsInKill earlier, a.1, a.2⟩
  | .collect p (some limit) :: earlier =>
    (h.collectWithin p limit (h.stateAfter s earlier)).1.toOption.join.map fun a =>
      ⟨p, Deed.endsInKill earlier, a.1, a.2⟩
  | .await p none :: earlier =>
    (h.await p (h.stateAfter s earlier)).1.toOption.map fun code =>
      ⟨p, Deed.endsInKill earlier, none, code⟩
  | .await p (some limit) :: earlier =>
    (h.awaitWithin p limit (h.stateAfter s earlier)).1.toOption.join.map fun code =>
      ⟨p, Deed.endsInKill earlier, none, code⟩
  | _ => none

/-- The part of a trail that comes before the record at a position was settled. -/
def Deed.beforeSettling (i : Nat) : List (Deed τ π) → List (Deed τ π)
  | [] => []
  | .settle j _ _ _ :: earlier => if j = i then earlier else beforeSettling i earlier
  | _ :: earlier => beforeSettling i earlier

/-- How the client of the record at a position ended, if it was started and came to an end. -/
def Host.exitOf? (h : Host τ σ π) (s : σ) (i : Nat) (trail : List (Deed τ π)) :
    Option (Exit π) :=
  h.exit? s (Deed.beforeSettling i trail)

/-- The count that is read from an output. -/
def Finding.sent? : Finding τ → Option Int
  | .report told => some told.sent
  | .count (.ok sent) => some sent
  | _ => none

theorem Finding.takenOver_sent (found : Finding τ) {r : Record τ π} (hr : r.sent = none) :
    (found.takenOver r).sent = found.sent? := by
  cases found with
  | nothing => exact hr
  | report told => rfl
  | unreadable line => exact hr
  | count sent =>
    cases sent with
    | error f => exact hr
    | ok n => rfl

/-- The deeds that neither start a client nor settle a record. -/
def Deed.Passing : Deed τ π → Prop
  | .launch _ _ | .settle .. => False
  | _ => True

section Passing

variable (h : Host τ σ π) (s : σ) {d : Deed τ π} (trail : List (Deed τ π))

theorem Host.launchAnswers_passing (hd : d.Passing) :
    h.launchAnswers s (d :: trail) = h.launchAnswers s trail := by
  cases d with
  | launch _ _ => exact absurd hd id
  | _ => rfl

theorem Deed.beforeSettling_passing (i : Nat) (hd : d.Passing) :
    beforeSettling i (d :: trail) = beforeSettling i trail := by
  cases d with
  | settle _ _ _ _ => exact absurd hd id
  | _ => rfl

/-- Remarks do not hide how a process exited. -/
theorem Host.exit?_remarks {before : List (Deed τ π)} {heard : Option String → Prop}
    (hbefore : ∀ d ∈ before, d.Remarks heard) :
    h.exit? s (before ++ trail) = h.exit? s trail := by
  induction before with
  | nil => rfl
  | cons d rest ih =>
    obtain ⟨hd, hrest⟩ := List.forall_mem_cons.1 hbefore
    cases d with
    | log _ | read _ _ => exact ih hrest
    | _ => exact absurd hd id

end Passing

namespace Fleet

variable [Seconds τ]

/-! ## §2 The chronicle -/

/-- A settled record agrees with how its process exited. One without an exit was never started. -/
structure Fits (found : Option (Exit π)) (r : Record τ π) : Prop where
  process : r.process = found.map (·.process)
  returncode : r.returncode = found.bind (·.code)
  success : r.status = .success ↔ ∃ e, found = some e ∧ e.succeeds r.role = true
  sent : r.sent = found.bind fun e => (e.finding τ).sent?

/-- The records agree with the trail of the run, whose phases began in the state `s`: they are for
the clients of the roster, their processes are what the launcher answered, and those that are settled
agree with how their clients ended. -/
structure Chronicle (h : Host τ σ π) (s : σ) (roster : List (Role × Int)) (w : World τ σ π) : Prop where
  env : w.state.env = h.stateAfter s w.trail
  roster : w.state.records.map (fun r => (r.role, r.index)) = roster
  launches : w.state.records.map (·.process) = (h.launchAnswers s w.trail).map Except.toOption
  settled : ∀ i r, w.record? i = some r → r.settled = true → Fits (h.exitOf? s i w.trail) r
  unread : ∀ i r, w.record? i = some r → r.settled = false → r.sent = none

variable {h : Host τ σ π} {s : σ} {roster : List (Role × Int)} {u v w : World τ σ π}

/-- A call that neither starts a client nor settles a record. -/
theorem Chronicle.called (hw : Chronicle h s roster w) {d : Deed τ π} (hd : d.Passing) {env : σ}
    (henv : (h.perform d w.state.env).2 = env) : Chronicle h s roster (w.after d env) where
  env := by
    rw [World.after_env, World.after_trail, Host.stateAfter, ← hw.env, henv]
  roster := hw.roster
  launches := by
    rw [World.after_trail, h.launchAnswers_passing s _ hd]
    exact hw.launches
  settled i r hr hsettled := by
    rw [Host.exitOf?, World.after_trail, Deed.beforeSettling_passing _ i hd]
    exact hw.settled i r hr hsettled
  unread := hw.unread

theorem Chronicle.answered (hw : Chronicle h s roster w) {d : Deed τ π}
    {f : σ → Except Fault α × σ} (hd : d.Passing) (hf : ∀ env, h.perform d env = bare (f env))
    {answer : Except Fault α} {env : σ} (hanswer : f w.state.env = (answer, env)) :
    Chronicle h s roster (w.after d env) :=
  hw.called hd (by rw [hf, hanswer]; rfl)

/-- Logging does nothing to the chronicle. -/
theorem Chronicle.noted (hw : Chronicle h s roster w) {d : Deed τ π} (hd : d.Logs) :
    Chronicle h s roster (w.noted d) := by
  cases d with
  | log record => exact hw.called (d := .log record) trivial rfl
  | misprint cause => exact hw.called (d := .misprint cause) trivial rfl
  | _ => exact absurd hd id

theorem Chronicle.logged (hw : Chronicle h s roster w) (record : LogRecord) :
    Chronicle h s roster (w.noted (.log record)) :=
  hw.noted trivial

/-- Deeds that do nothing to the machine and the records do nothing to the chronicle. -/
theorem Chronicle.extended (hw : Chronicle h s roster w) {new : List (Deed τ π)}
    (hnew : ∀ d ∈ new, d.Passing ∧ ∀ env, (h.perform d env).2 = env) :
    Chronicle h s roster ⟨w.state, new ++ w.trail⟩ := by
  induction new with
  | nil => exact hw
  | cons d rest ih =>
    obtain ⟨⟨hpassing, hidle⟩, hrest⟩ := List.forall_mem_cons.1 hnew
    exact (ih hrest).called hpassing (hidle _)

theorem Chronicle.remarked (hw : Chronicle h s roster w) {new : List (Deed τ π)}
    {heard : Option String → Prop} (hnew : ∀ d ∈ new, d.Remarks heard) :
    Chronicle h s roster ⟨w.state, new ++ w.trail⟩ := by
  refine hw.extended fun d hd => ?_
  have hremarks := hnew d hd
  cases d with
  | log _ | read _ _ => exact ⟨trivial, fun _ => rfl⟩
  | _ => exact absurd hremarks id

omit [Seconds τ] in
/-- A new value at a position shows there and nowhere else. -/
theorem getElem?_set_cases {records : List (Record τ π)} {i j : Nat} {t u : Record τ π}
    (h : (records.set i t)[j]? = some u) : (i ≠ j ∧ records[j]? = some u) ∨ (i = j ∧ u = t) := by
  rw [List.getElem?_set] at h
  by_cases hij : i = j
  · rw [if_pos hij] at h
    split at h
    · exact .inr ⟨hij, (Option.some.inj h).symm⟩
    · cases h
  · rw [if_neg hij] at h
    exact .inl ⟨hij, h⟩

/-- The record of a client that came to its end is settled. -/
theorem Chronicle.settled_at (hw : Chronicle h s roster w) {i : Nat} {r t : Record τ π}
    (hr : w.record? i = some r) (hfits : Fits (h.exit? s w.trail) t) (hrole : t.role = r.role)
    (hindex : t.index = r.index) (hprocess : t.process = r.process) (hsettled : t.settled = true)
    (status : Status) (returncode : Option Int) (error : Option String) :
    Chronicle h s roster ⟨⟨w.state.env, w.state.records.set i t⟩,
      .settle i status returncode error :: w.trail⟩ where
  env := hw.env
  roster := by
    rw [← hw.roster]
    exact map_set_of_eq hr (by rw [hrole, hindex])
  launches := by
    have hanswers : h.launchAnswers s (.settle i status returncode error :: w.trail) =
        h.launchAnswers s w.trail := rfl
    rw [hanswers, ← hw.launches]
    exact map_set_of_eq hr hprocess
  settled j u hu hj := by
    rw [Host.exitOf?, Deed.beforeSettling]
    rcases getElem?_set_cases hu with ⟨hij, hu⟩ | ⟨rfl, rfl⟩
    · rw [if_neg hij]
      exact hw.settled j u hu hj
    -- what comes before the settlement is the trail so far
    · rw [if_pos rfl]
      exact hfits
  unread j u hu hj := by
    rcases getElem?_set_cases hu with ⟨_, hu⟩ | ⟨rfl, rfl⟩
    · exact hw.unread j u hu hj
    · exact absurd (hj.symm.trans hsettled) Bool.false_ne_true

/-- The record of a process that exited fits it. -/
theorem fits_closed {e : Exit π} {r : Record τ π} {role : Role} (hrole : r.role = role)
    (hprocess : r.process = some e.process) (hunread : r.sent = none) (error : Option String) :
    Fits (some e) (e.closed role r error) where
  process := by rw [Exit.closed_process, hprocess]; rfl
  returncode := rfl
  success := by
    rw [Exit.closed_success_iff, Exit.closed_role, hrole]
    simp
  sent := (e.finding τ).takenOver_sent hunread

theorem Chronicle.closes (hv : Chronicle h s roster v) {role : Role} {heard : Option String → Prop}
    {e : Exit π} {i : Nat} {r : Record τ π} (hexit : h.exit? s v.trail = some e)
    (hr : v.record? i = some r) (hopen : r.settled = false) (hprocess : r.process = some e.process)
    (hrole : r.role = role) (hu : Closes role heard e i r v u) : Chronicle h s roster u := by
  obtain ⟨error, before, later, hrecords, htrail, hbefore, hlater⟩ := hu.settled
  have hfits : Fits (h.exit? s (before ++ v.trail)) (e.closed role r error) := by
    rw [h.exit?_remarks s _ hbefore, hexit]
    exact fits_closed hrole hprocess (hv.unread i r hr hopen) error
  have hclosed := ((hv.remarked hbefore).settled_at hr hfits (by simp) (by simp) (by simp)
    (e.settled_closed role r error) (e.closed role r error).status e.code error).remarked hlater
  -- this is the state and the trail of the world in which the record was settled
  have hworld : u = ⟨⟨v.state.env, v.state.records.set i (e.closed role r error)⟩,
      later ++ .settle i (e.closed role r error).status e.code error :: (before ++ v.trail)⟩ := by
    rw [← hrecords, ← htrail, ← hu.env]
  rw [hworld]
  exact hclosed

/-- A client for which the launcher was called. -/
theorem Chronicle.appended (hw : Chronicle h s roster w) {t : Record τ π} {argv : List String}
    {capture : Capture} (hprocess : t.process = (h.launch argv capture w.state.env).1.toOption)
    (hopen : t.settled = false) (hunread : t.sent = none) :
    Chronicle h s (roster ++ [(t.role, t.index)])
      ⟨⟨(h.launch argv capture w.state.env).2, w.state.records ++ [t]⟩,
        .launch argv capture :: .enlist t.role t.index :: w.trail⟩ where
  env := by
    show (h.launch argv capture w.state.env).2 =
      (h.perform (.launch argv capture) (h.stateAfter s w.trail)).2
    rw [hw.env]
    rfl
  roster := by rw [List.map_append, hw.roster]; rfl
  launches := by
    show (w.state.records ++ [t]).map (·.process) = (h.launchAnswers s w.trail ++
      [(h.launch argv capture (h.stateAfter s w.trail)).1]).map Except.toOption
    rw [List.map_append, List.map_append, hw.launches, ← hw.env]
    simp [hprocess]
  settled i r hr hsettled := by
    rcases World.record?_opened_cases w t i hr with hr | ⟨_, rfl⟩
    · exact hw.settled i r hr hsettled
    -- the new record is still open
    · exact absurd (hopen.symm.trans hsettled) Bool.false_ne_true
  unread i r hr hstill := by
    rcases World.record?_opened_cases w t i hr with hr | ⟨_, rfl⟩
    · exact hw.unread i r hr hstill
    · exact hunread

/-- A client that was started or refused. -/
theorem Chronicle.spawned {y : Yard τ σ π} {role : Role} {index : Int}
    (hw : Chronicle y.host s roster w) (hu : Spawned y role index w u) :
    Chronicle y.host s (roster ++ [(role, index)]) u := by
  -- what becomes of the record of the client stands where it was opened
  have hmodify : ∀ f : Record τ π → Record τ π,
      (w.enlisted role index).state.records.modify w.state.records.length f =
        w.state.records ++ [f { role, index }] := by
    intro f
    rw [World.set_eq_modify World.record?_enlisted]
    simp [World.enlisted]
  cases hu with
  | @launched p env record _ hanswer =>
    have happended := hw.appended (t := { role, index, process := some p }) (by rw [hanswer]; rfl)
      rfl rfl
    rw [hanswer, ← hmodify fun r => { r with process := some p }] at happended
    exact happended.logged record
  | @refused f env record reason _ hanswer _ =>
    have happended := hw.appended (t := { role, index }) (by rw [hanswer]; rfl) rfl rfl
    rw [hanswer] at happended
    have hlogged := happended.logged record
    -- nothing was waited for, so there is no exit that the record has to fit
    have hfits : Fits none (({ role, index } : Record τ π).settle .failure none (some reason)) :=
      ⟨rfl, rfl, by simp [Record.settle, Record.settled], rfl⟩
    have hsettled := hlogged.settled_at World.record?_enlisted hfits rfl rfl rfl rfl .failure none
      (some reason)
    show Chronicle y.host s _ ⟨⟨env, (w.enlisted role index).state.records.modify _ _⟩, _⟩
    rw [World.set_eq_modify World.record?_enlisted]
    exact hsettled

/-! ## §3 Rounds -/

section Waits

variable {p : π} {limit : τ} {a : Option String × ExitCode} {code : ExitCode} {env : σ}

theorem Chronicle.exit_collect (hw : Chronicle h s roster w)
    (hanswer : h.collect p w.state.env = (.ok a, env)) :
    h.exit? s (.collect p none :: w.trail) = some ⟨p, Deed.endsInKill w.trail, a.1, a.2⟩ := by
  rw [Host.exit?, ← hw.env, hanswer]
  rfl

theorem Chronicle.exit_collectWithin (hw : Chronicle h s roster w)
    (hanswer : h.collectWithin p limit w.state.env = (.ok (some a), env)) :
    h.exit? s (.collect p (some limit) :: w.trail) =
      some ⟨p, Deed.endsInKill w.trail, a.1, a.2⟩ := by
  rw [Host.exit?, ← hw.env, hanswer]
  rfl

theorem Chronicle.exit_await (hw : Chronicle h s roster w)
    (hanswer : h.await p w.state.env = (.ok code, env)) :
    h.exit? s (.await p none :: w.trail) = some ⟨p, Deed.endsInKill w.trail, none, code⟩ := by
  rw [Host.exit?, ← hw.env, hanswer]
  rfl

theorem Chronicle.exit_awaitWithin (hw : Chronicle h s roster w)
    (hanswer : h.awaitWithin p limit w.state.env = (.ok (some code), env)) :
    h.exit? s (.await p (some limit) :: w.trail) =
      some ⟨p, Deed.endsInKill w.trail, none, code⟩ := by
  rw [Host.exit?, ← hw.env, hanswer]
  rfl

end Waits

variable {y : Yard τ σ π} {p : π} {i : Nat} {deadline : τ} {e : Exit π}

theorem Collected.chronicle {found : Option (Option String × ExitCode)}
    (hu : Collected y p deadline w found v) (hw : Chronicle y.host s roster w) :
    Chronicle y.host s roster v ∧
      ∀ a, found = some a → y.host.exit? s v.trail = some ⟨p, false, a.1, a.2⟩ := by
  cases hu with
  | ended hpoll hcollect =>
    have hpolled := hw.answered (d := .poll p) trivial (fun _ => rfl) hpoll
    refine ⟨hpolled.answered (by trivial) (fun _ => rfl) hcollect, ?_⟩
    intro _ heq
    cases heq
    exact hpolled.exit_collect hcollect
  | inTime hpoll hnow hcollect =>
    have hpolled := hw.answered (d := .poll p) trivial (fun _ => rfl) hpoll
    have hread := hpolled.answered (d := .readClock) trivial (fun _ => rfl) hnow
    refine ⟨hread.answered (by trivial) (fun _ => rfl) hcollect, ?_⟩
    intro _ heq
    cases heq
    exact hread.exit_collectWithin hcollect
  | @atLast clock _ _ _ _ _ _ _ hpoll hnow hcollect hpoll' hcollect' =>
    have hpolled := hw.answered (d := .poll p) trivial (fun _ => rfl) hpoll
    have hread := hpolled.answered (d := .readClock) trivial (fun _ => rfl) hnow
    have hwaited := hread.answered (d := .collect p (some (remaining deadline clock))) trivial
      (fun _ => rfl) hcollect
    have hpolled' := hwaited.answered (d := .poll p) trivial (fun _ => rfl) hpoll'
    refine ⟨hpolled'.answered (by trivial) (fun _ => rfl) hcollect', ?_⟩
    intro _ heq
    cases heq
    exact hpolled'.exit_collect hcollect'
  | @running clock _ _ _ _ hpoll hnow hcollect hpoll' =>
    have hpolled := hw.answered (d := .poll p) trivial (fun _ => rfl) hpoll
    have hread := hpolled.answered (d := .readClock) trivial (fun _ => rfl) hnow
    have hwaited := hread.answered (d := .collect p (some (remaining deadline clock))) trivial
      (fun _ => rfl) hcollect
    exact ⟨hwaited.answered (by trivial) (fun _ => rfl) hpoll', nofun⟩

/-- The exit of a publisher's process can be read off the trail. -/
theorem Parted.chronicle (hv : Parted y p deadline w e v) (hw : Chronicle y.host s roster w) :
    Chronicle y.host s roster v ∧ y.host.exit? s v.trail = some e := by
  cases hv with
  | exited hcollected =>
    obtain ⟨hchronicle, hexit⟩ := hcollected.chronicle hw
    exact ⟨hchronicle, hexit _ rfl⟩
  | killed hrunning hkill hcollect =>
    obtain ⟨hchronicle, _⟩ := hrunning.chronicle hw
    have hkilled := hchronicle.answered (d := .kill p) trivial (fun _ => rfl) hkill
    exact ⟨hkilled.answered (by trivial) (fun _ => rfl) hcollect, hkilled.exit_collect hcollect⟩

/-- The exit of a subscriber's process can be read off the trail. -/
theorem Released.chronicle (hv : Released y p deadline w e v) (hw : Chronicle y.host s roster w) :
    Chronicle y.host s roster v ∧ y.host.exit? s v.trail = some e := by
  cases hv with
  | exited hnow hawait =>
    have hread := hw.answered (d := .readClock) trivial (fun _ => rfl) hnow
    exact ⟨hread.answered (by trivial) (fun _ => rfl) hawait, hread.exit_awaitWithin hawait⟩
  | @killed clock _ _ _ _ _ hnow hawait hkill hawait' =>
    have hread := hw.answered (d := .readClock) trivial (fun _ => rfl) hnow
    have hwaited := hread.answered (d := .await p (some (remaining deadline clock))) trivial
      (fun _ => rfl) hawait
    have hkilled := hwaited.answered (d := .kill p) trivial (fun _ => rfl) hkill
    exact ⟨hkilled.answered (by trivial) (fun _ => rfl) hawait', hkilled.exit_await hawait'⟩

/-- A round of waiting for publishers keeps the chronicle. -/
theorem Chronicle.joined (hw : Chronicle y.host s roster w)
    (hrole : ∀ r, w.record? i = some r → r.role = .publisher) (hu : Joined y deadline i w u) :
    Chronicle y.host s roster u := by
  cases hu with
  | passed _ => exact hw
  | closed hr hopen hprocess hparted hcloses =>
    obtain ⟨hv, hexit⟩ := hparted.chronicle hw
    obtain ⟨hrecords, rfl⟩ := hparted.records
    exact hv.closes hexit ((World.record?_congr hrecords i).trans hr) hopen hprocess (hrole _ hr)
      hcloses

/-- A request to stop keeps the chronicle. -/
theorem Chronicle.requested (hw : Chronicle y.host s roster w) {asked : Bool}
    (hu : Requested y i w asked u) : Chronicle y.host s roster u := by
  cases hu with
  | passed _ => exact hw
  | @spared p _ _ _ hpoll => exact hw.answered (d := .poll p) trivial (fun _ => rfl) hpoll
  | @asked p _ _ _ hpoll hterminate | @gone p _ _ _ _ hpoll hterminate _ =>
    have hpolled := hw.answered (d := .poll p) trivial (fun _ => rfl) hpoll
    exact hpolled.answered (by trivial) (fun _ => rfl) hterminate

/-- A round of waiting for subscribers keeps the chronicle. -/
theorem Chronicle.stopped (hw : Chronicle y.host s roster w)
    (hrole : ∀ r, w.record? i = some r → r.role = .subscriber) (hu : Stopped y deadline i w u) :
    Chronicle y.host s roster u := by
  cases hu with
  | passed _ => exact hw
  | closed hr hopen hprocess hreleased hcloses =>
    obtain ⟨hv, hexit⟩ := hreleased.chronicle hw
    obtain ⟨hrecords, rfl⟩ := hreleased.records
    exact hv.closes hexit ((World.record?_congr hrecords i).trans hr) hopen hprocess (hrole _ hr)
      hcloses

end Fleet

end BrokerLoad
