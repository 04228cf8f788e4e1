import BrokerLoad.Proofs.Fleet.Bench
import BrokerLoad.Proofs.Fleet.InTurn

/-!
# How the subscribers are stopped

All subscribers are asked to stop before the first of them is waited for. Only a subscriber that is
found running is asked, and only one whose wait expires is killed. The exits race with the calls, so
a process may be gone when it is asked, or when its turn to be waited for comes. Whatever it does, its
record ends up settled.

## Main definitions

* `Fleet.Pleaded`: what asking for one record does.
* `Fleet.Attended`: what waiting for one record does, and what becomes of it.
* `Fleet.TornDown`: what stopping the subscribers does.

## Main statements

* `Fleet.stopSubscribers_tears_down`: stopping the subscribers returns, and does just that.
-/

namespace BrokerLoad

variable {τ σ π : Type}

/-- The deeds of stopping subscribers. -/
def Deed.Stops [Seconds τ] (d : Deed τ π) : Prop := d.Asks (fun _ => True) ∨ d.Waits fun _ => True

namespace Fleet

/-! ## §1 What is done for one record -/

/-- What asking a record to stop does. A record that is settled or has no process is passed over, and
a process that has exited is not asked. One that was just found running is asked, unless it is gone
by then. -/
inductive Pleaded (h : Host τ σ π) (r : Record τ π) : List (Deed τ π) → Prop where
  | passed (hidle : r.settled = true ∨ r.process = none) : Pleaded h r []
  | spared {p : π} {code : Int} {s t : σ} (hopen : r.settled = false)
      (hprocess : r.process = some p) (hpoll : h.poll p s = (.ok (some code), t)) :
      Pleaded h r [.poll p]
  | asked {p : π} {s t : σ} (hopen : r.settled = false) (hprocess : r.process = some p)
      (hrunning : h.poll p s = (.ok none, t))
      (hterminate : (h.terminate p t).1 = .ok () ∨
        ∃ f, (h.terminate p t).1 = .error f ∧ f.saysGone = true) :
      Pleaded h r [.poll p, .terminate p]

variable [Seconds τ]

/-- What waiting for a record does, and the record that it leaves. A settled record is passed over.
Any other has one wait, limited by what is left until the deadline. Its process is killed exactly if
that wait expires, and then it is waited for without a limit. -/
inductive Attended (h : Host τ σ π) (deadline : τ) (i : Nat) (r : Record τ π) :
    Record τ π → List (Deed τ π) → Prop where
  | passed (hsettled : r.settled = true) : Attended h deadline i r r []
  | exited {p : π} {clock : τ} {code : ExitCode} {s t v : σ} {s' : Record τ π}
      {closing : List (Deed τ π)} (hopen : r.settled = false) (hprocess : r.process = some p)
      (hnow : h.now s = (.ok clock, t))
      (hawait : h.awaitWithin p (remaining deadline clock) t = (.ok (some code), v))
      (hclosing : Closing .subscriber (fun _ => False) ⟨p, false, none, code⟩ i r s' closing) :
      Attended h deadline i r s'
        (.readClock :: .await p (some (remaining deadline clock)) :: closing)
  | killed {p : π} {clock : τ} {code : ExitCode} {s t v s₁ s₂ : σ} {s' : Record τ π}
      {closing : List (Deed τ π)} (hopen : r.settled = false) (hprocess : r.process = some p)
      (hnow : h.now s = (.ok clock, t))
      (hexpired : h.awaitWithin p (remaining deadline clock) t = (.ok none, v))
      (hkill : h.kill p v = (.ok (), s₁)) (hawait : h.await p s₁ = (.ok code, s₂))
      (hclosing : Closing .subscriber (fun _ => False) ⟨p, true, none, code⟩ i r s' closing) :
      Attended h deadline i r s'
        (.readClock :: .await p (some (remaining deadline clock)) :: .kill p :: .await p none ::
          closing)

variable {y : Yard τ σ π} {F : Fates σ π} {u v w : World τ σ π} {i : Nat} {r s : Record τ π}
  {deadline : τ} {role : Role} {heard : Option String → Prop} {e : Exit π}

theorem Attended.settled {deeds : List (Deed τ π)} (h : Attended y.host deadline i r s deeds) :
    s.settled = true ∧ (r.settled = true → s = r) := by
  cases h with
  | passed hsettled => exact ⟨hsettled, fun _ => rfl⟩
  | exited hopen _ _ _ hclosing | killed hopen _ _ _ _ _ hclosing =>
    exact ⟨hclosing.settled, fun hsettled => by simp [hopen] at hsettled⟩

/-! ## §2 The rounds as deeds -/

theorem Requested.pleaded {asked : Bool} (hu : Requested y i w asked u) :
    ∃ deeds, u.history = w.history ++ deeds ∧
      ∀ r, w.record? i = some r → Pleaded y.host r deeds := by
  -- the record that a poll is made for is the one at the position
  have hbusy : ∀ {p : π} {r : Record τ π}, Busy i p w → w.record? i = some r →
      r.settled = false ∧ r.process = some p := by
    intro p r hyp hr
    obtain ⟨r', hr', hopen, hprocess⟩ := hyp
    obtain rfl : r = r' := Option.some.inj (hr.symm.trans hr')
    exact ⟨hopen, hprocess⟩
  cases hu with
  | passed hidle =>
    refine ⟨[], by simp, fun r hr => .passed ?_⟩
    cases hsettled : r.settled with
    | true => exact .inl rfl
    | false =>
      cases hprocess : r.process with
      | none => exact .inr rfl
      | some p => exact absurd ⟨r, hr, hsettled, hprocess⟩ (hidle p)
  | @spared p code s hb hpoll =>
    refine ⟨[.poll p], World.history_after _ _ _, fun r hr => ?_⟩
    obtain ⟨hopen, hprocess⟩ := hbusy hb hr
    exact .spared hopen hprocess hpoll
  | @asked p s t hb hpoll hterminate =>
    refine ⟨[.poll p, .terminate p], by simp [World.history_after], fun r hr => ?_⟩
    obtain ⟨hopen, hprocess⟩ := hbusy hb hr
    exact .asked hopen hprocess hpoll (.inl (by rw [hterminate]))
  | @gone p f s t hb hpoll hterminate hgone =>
    refine ⟨[.poll p, .terminate p], by simp [World.history_after], fun r hr => ?_⟩
    obtain ⟨hopen, hprocess⟩ := hbusy hb hr
    exact .asked hopen hprocess hpoll (.inr ⟨f, by rw [hterminate], hgone⟩)

theorem Stopped.attended (hu : Stopped y deadline i w u) :
    ∃ deeds, u.history = w.history ++ deeds ∧ ∀ r, w.record? i = some r →
      ∃ s, u.record? i = some s ∧ Attended y.host deadline i r s deeds := by
  cases hu with
  | passed hsettled => exact ⟨[], by simp, fun r hr => ⟨r, hr, .passed (hsettled r hr)⟩⟩
  | @closed r p e v u hr hopen hprocess hreleased hcloses =>
    obtain ⟨s, closing, hs, hclosing, hdeeds⟩ :=
      hcloses.closing ((World.record?_congr hreleased.records.1 i).trans hr)
    -- the record that was waited for is the one at the position
    have hthis : ∀ {deeds}, Attended y.host deadline i r s deeds → ∀ r', w.record? i = some r' →
        ∃ s, u.record? i = some s ∧ Attended y.host deadline i r' s deeds := by
      intro deeds hattended r' hr'
      obtain rfl : r = r' := Option.some.inj (hr.symm.trans hr')
      exact ⟨s, hs, hattended⟩
    cases hreleased with
    | exited hnow hawait =>
      refine ⟨_, ?_, hthis (.exited hopen hprocess hnow hawait hdeeds)⟩
      simp [hclosing, World.history_after]
    | killed hnow hexpired hkill hawait =>
      refine ⟨_, ?_, hthis (.killed hopen hprocess hnow hexpired hkill hawait hdeeds)⟩
      simp [hclosing, World.history_after]

/-- After its round a record is settled. -/
theorem Stopped.settles (hu : Stopped y deadline i w u) (hs : u.record? i = some s) :
    s.settled = true := by
  cases hu with
  | passed hsettled => exact hsettled s hs
  | closed hr _ _ hreleased hcloses =>
    obtain ⟨s', _, hs', _, hclosing⟩ :=
      hcloses.closing ((World.record?_congr hreleased.records.1 i).trans hr)
    obtain rfl : s = s' := Option.some.inj (hs.symm.trans hs')
    exact hclosing.settled

/-! ## §3 Rounds that do not fail -/

theorem terminate_completes (hanswers : y.host.Answers F Deed.Stops) (i : Nat) :
    Completes (fun _ => True) (terminate y i) fun _ _ => True := by
  unfold terminate
  refine Completes.bind Completes.recordAt? fun found => ?_
  cases found with
  | none => exact fun _ _ => trivial
  | some r =>
    cases hopen : r.settled with
    | true =>
      simp only [hopen]
      exact fun _ _ => trivial
    | false =>
      cases hprocess : r.process with
      | none =>
        simp only [hopen, hprocess]
        exact fun _ _ => trivial
      | some p =>
        simp only [hopen, hprocess]
        refine Completes.bind (R := fun _ _ => True) (Completes.act fun w _ => ?_) fun polled => ?_
        · obtain ⟨a, s, hanswer⟩ := answered hanswers (d := .poll p) (s := w.state.env)
            (fun _ => rfl) (.inl trivial) trivial fun _ => rfl
          exact ⟨a, s, hanswer, trivial⟩
        · cases polled with
          | some code => exact fun _ _ => trivial
          | none =>
            -- that the process is gone is all that the request may raise
            intro w _
            simp only [Action.recover, Action.runFrom_ofFunction, Action.runFrom_bind, act_run]
            cases hanswer : y.host.terminate p w.state.env with
            | mk answer env =>
              cases answer with
              | ok _ => exact trivial
              | error f =>
                have herror : (y.host.perform (.terminate p) w.state.env).1 = .error f := by
                  simp only [Host.perform, bare, hanswer]
                  rfl
                have hgone : f.saysGone = true :=
                  hanswers (.terminate p) _ f (.inl trivial) trivial herror
                simp only [hgone, if_true]
                exact trivial

theorem stopOne_completes (hF : y.host.Respects F) (hanswers : y.host.Answers F Deed.Stops)
    (deadline : τ) (i : Nat) :
    Completes (fun w => ∀ r, w.record? i = some r → r.settled = false → r.process ≠ none)
      (stopOne y deadline i) fun _ _ => True := by
  unfold stopOne
  refine Completes.bind Completes.recordAt? fun found => ?_
  cases found with
  | none => exact fun _ _ => trivial
  | some r =>
    cases hopen : r.settled with
    | true =>
      simp only [hopen, if_true]
      exact fun _ _ => trivial
    | false =>
      simp only [hopen, Bool.false_eq_true, if_false]
      cases hprocess : r.process with
      | none => exact fun w hw => absurd hprocess (hw.1 r hw.2 hopen)
      | some p =>
        refine Completes.bind (R := fun _ _ => True) (Completes.act fun w _ => ?_) fun clock => ?_
        · obtain ⟨a, s, hanswer⟩ := answered hanswers (d := .readClock) (s := w.state.env)
            (fun _ => rfl) (.inr trivial) trivial fun _ => rfl
          exact ⟨a, s, hanswer, trivial⟩
        refine Completes.bind (R := fun _ _ => True) (Completes.act fun w _ => ?_) fun found => ?_
        · obtain ⟨a, s, hanswer⟩ := answered hanswers
            (d := .await p (some (remaining deadline clock))) (s := w.state.env)
            (fun _ => rfl) (.inr ⟨trivial, clamped_max _⟩) trivial fun _ => rfl
          exact ⟨a, s, hanswer, trivial⟩
        cases found with
        | some code =>
          -- nothing but the record and the log is left to be written
          simp only
          split
          · exact fun _ _ => trivial
          · exact fun _ _ => trivial
        | none =>
          refine Completes.bind (R := fun _ w => F.ending w.state.env p)
            (Completes.act fun w _ => ?_) fun _ => ?_
          · obtain ⟨a, s, hanswer⟩ := answered hanswers (d := .kill p) (s := w.state.env)
              (fun _ => rfl) (.inr trivial) trivial fun _ => rfl
            exact ⟨a, s, hanswer, hF.kill hanswer⟩
          refine Completes.bind (R := fun _ _ => True) (Completes.act fun w hw => ?_) fun _ => ?_
          -- the process was killed, so waiting for it ends
          · obtain ⟨a, s, hanswer⟩ := answered hanswers (d := .await p none) (s := w.state.env)
              (fun _ => rfl) (.inr ⟨trivial, clamped_none⟩) hw fun _ => rfl
            exact ⟨a, s, hanswer, trivial⟩
          · exact fun _ _ => trivial

/-! ## §4 Stopping all subscribers -/

/-- What stopping the subscribers does. In the order of the records, all of them are asked, then the
clock is read, and then each of them is waited for until the same deadline. Every record comes out
settled, and those that were settled before, or are none of a subscriber, are as they were. Asking
any of them again, whatever the machine does meanwhile, asks nobody and changes nothing. -/
structure TornDown (y : Yard τ σ π) (grace : τ) (w u : World τ σ π) : Prop where
  course : ∃ clock asks waits, u.history = w.history ++ asks.flatten ++ .readClock :: waits.flatten ∧
    List.Forall₂ (fun i deeds => ∀ r, w.record? i = some r → Pleaded y.host r deeds)
      (w.positionsOf .subscriber) asks ∧
    List.Forall₂ (fun i deeds => ∀ r, w.record? i = some r → ∃ s, u.record? i = some s ∧
      Attended y.host (Seconds.add clock grace) i r s deeds) (w.positionsOf .subscriber) waits
  settled : ∀ i r, w.record? i = some r → r.role = .subscriber →
    ∃ s, u.record? i = some s ∧ s.settled = true ∧ (r.settled = true → s = r)
  others : ∀ i r, w.record? i = some r → r.role ≠ .subscriber → u.record? i = some r
  silent : ∀ i r, w.record? i = some r → r.role = .subscriber →
    ∀ v : World τ σ π, v.state.records = u.state.records →
      Action.runFrom (terminate y i) v = (.ok false, v)

/-- A settled record is not asked. -/
theorem terminate_settled (y : Yard τ σ π) {w : World τ σ π} (hr : w.record? i = some r)
    (hsettled : r.settled = true) : Action.runFrom (terminate y i) w = (.ok false, w) := by
  have hfound : Action.runFrom (recordAt? i) w = (.ok (some r), w) := by
    rw [← hr]
    rfl
  rw [terminate, Action.runFrom_bind, hfound]
  simp only [hsettled]
  rfl

/-- Asking some subscribers. -/
theorem askAll_run (hanswers : y.host.Answers F Deed.Stops) (positions : List Nat) :
    ∃ u, Action.runFrom (askAll y positions) w = (.ok (), u) ∧
      InTurn (fun i a b => ∃ asked, Requested y i a asked b) positions w u ∧
      u.state.records = w.state.records := by
  refine forEach_completes (P := fun v => v.state.records = w.state.records) ?_ rfl
  intro i _ v hv
  obtain ⟨asked, u, hrun, hu, _⟩ :=
    (terminate_completes hanswers i).turns (terminate_turns y i v) trivial
  refine ⟨u, ?_, ⟨asked, hu⟩, hu.records.trans hv⟩
  rw [Action.runFrom_discard, hrun]

/-- Waiting for some subscribers whose open records have processes. -/
theorem stopEach_run (hF : y.host.Respects F) (hanswers : y.host.Answers F Deed.Stops)
    (deadline : τ) (positions : List Nat)
    (hcrewed : ∀ i ∈ positions, ∀ r, w.record? i = some r → r.settled = false →
      r.process ≠ none) :
    ∃ u, Action.runFrom (forEach (stopOne y deadline) positions) w = (.ok (), u) ∧
      InTurn (Stopped y deadline) positions w u := by
  -- the open records keep their processes, for a round settles its own and leaves the others alone
  let Manned : World τ σ π → Prop := fun v =>
    ∀ i ∈ positions, ∀ r, v.record? i = some r → r.settled = false → r.process ≠ none
  have hround : ∀ i ∈ positions, ∀ v, Manned v → ∃ u,
      Action.runFrom (stopOne y deadline i) v = (.ok (), u) ∧ Stopped y deadline i v u ∧
        Manned u := by
    intro i hi v hv
    obtain ⟨_, u, hrun, hu, _⟩ :=
      (stopOne_completes hF hanswers deadline i).turns (stopOne_turns y deadline i v) (hv i hi)
    refine ⟨u, hrun, hu, fun j hj s hs hopen => ?_⟩
    by_cases hji : j = i
    · subst hji
      have hsettled : s.settled = true := hu.settles hs
      exact absurd (hopen.symm.trans hsettled) Bool.false_ne_true
    · rw [local_stopped y deadline i v u hu j hji] at hs
      exact hv j hj s hs hopen
  obtain ⟨u, hrun, hrounds, _⟩ := forEach_completes hround hcrewed
  exact ⟨u, hrun, hrounds⟩

/-- Stopping the subscribers returns, whatever they do, as long as the machine raises nothing but that
a process which is asked to stop is gone. -/
theorem stopSubscribers_tears_down {grace : τ} (hF : y.host.Respects F)
    (hanswers : y.host.Answers F Deed.Stops) (hgrace : y.patience.stopGrace = some grace)
    (hcrewed : ∀ i r, w.record? i = some r → r.role = .subscriber → r.settled = false →
      r.process ≠ none) :
    ∃ u, Action.runFrom (stopSubscribers y) w = (.ok (), u) ∧ TornDown y grace w u := by
  have hnodup : (w.positionsOf .subscriber).Nodup := w.nodup_positionsOf _
  obtain ⟨v, hask, hasked, hrecords⟩ := askAll_run (w := w) hanswers (w.positionsOf .subscriber)
  obtain ⟨clock, env, hnow⟩ := answered hanswers (d := .readClock) (s := v.state.env)
    (fun _ => rfl) (.inr trivial) trivial fun _ => rfl
  have hfound : ∀ i, (World.after v .readClock env).record? i = w.record? i :=
    fun i => World.record?_congr hrecords i
  obtain ⟨u, hwait, hwaited⟩ := stopEach_run (w := World.after v .readClock env) hF hanswers
    (Seconds.add clock grace) (w.positionsOf .subscriber) (by
      intro i hi r hr
      rw [hfound] at hr
      obtain ⟨r', hr', hrole⟩ := w.mem_positionsOf.1 hi
      obtain rfl : r = r' := Option.some.inj (hr.symm.trans hr')
      exact hcrewed i r hr hrole)
  -- what the rounds do for each record
  obtain ⟨_, asks, hasks, hpleaded⟩ := hasked.apart
    (D := fun _ found _ deeds => ∀ r, found = some r → Pleaded y.host r deeds)
    (local_requested y) (fun i a b hyp => hyp.elim fun _ hround => hround.pleaded) hnodup
  obtain ⟨hothers, waits, hwaits, hattended⟩ := hwaited.apart
    (D := fun i found left deeds => ∀ r, found = some r → ∃ s, left = some s ∧
      Attended y.host (Seconds.add clock grace) i r s deeds)
    (local_stopped y _) (fun i a b hround => hround.attended) hnodup
  simp only [hfound] at hattended hothers
  have hsettled : ∀ i r, w.record? i = some r → r.role = .subscriber →
      ∃ s, World.record? u i = some s ∧ s.settled = true ∧ (r.settled = true → s = r) := by
    intro i r hr hrole
    obtain ⟨_, _, hdeeds⟩ := exists_of_forall₂ hattended (w.mem_positionsOf.2 ⟨r, hr, hrole⟩)
    obtain ⟨s, hs, hattended⟩ := hdeeds r hr
    exact ⟨s, hs, hattended.settled⟩
  refine ⟨u, ?_, ⟨clock, asks, waits, ?_, hpleaded, hattended⟩, hsettled, ?_, ?_⟩
  · simp only [stopSubscribers, Action.runFrom_bind, positionsOf_eq, hask, awaitAll, now, act_run,
      hnow, hgrace]
    exact hwait
  · rw [hwaits, World.history_after, hasks, List.append_assoc, List.append_assoc,
      List.append_assoc, List.singleton_append]
  · intro i r hr hrole
    refine (hothers i fun hi => ?_).trans hr
    obtain ⟨r', hr', hrole'⟩ := w.mem_positionsOf.1 hi
    obtain rfl : r = r' := Option.some.inj (hr.symm.trans hr')
    exact hrole hrole'
  · intro i r hr hrole v hv
    obtain ⟨s, hs, hsettled, _⟩ := hsettled i r hr hrole
    exact terminate_settled y ((World.record?_congr hv i).trans hs) hsettled

/-- A subscriber that could not be started is passed over, and one that hangs is asked and killed. -/
theorem hung_subscriber_torn_down :
    let w : World Rat Rat Unit :=
      { state := { env := 0, records :=
          [{ role := .subscriber, index := 0, status := .failure },
           { role := .subscriber, index := 1, process := some () }] } }
    ∃ u, Action.runFrom (stopSubscribers Bench.hung) w = (.ok (), u) ∧
      TornDown Bench.hung 3 w u := by
  intro w
  have hanswers : Bench.hanging.Answers Fates.blank Deed.Stops := by
    intro d s f _ _ herror
    cases d with
    | collect p limit | await p limit => cases limit <;> cases herror
    | _ => cases herror
  have hcrewed : ∀ i r, w.record? i = some r → r.role = .subscriber → r.settled = false →
      r.process ≠ none := by
    intro i r hr _ hopen
    have hmem : r ∈ w.state.records := List.mem_of_getElem? hr
    simp only [w, List.mem_cons, List.not_mem_nil, or_false] at hmem
    rcases hmem with rfl | rfl
    · exact absurd hopen (by decide)
    · exact nofun
  exact stopSubscribers_tears_down (y := Bench.hung) Bench.hanging.respects_blank hanswers rfl hcrewed

end Fleet

end BrokerLoad
