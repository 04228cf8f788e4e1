import BrokerLoad.Proofs.Client.Replies

/-!
# What requests do to a client

A client notes every request and every sleep before it is carried out, and takes in what happened
meanwhile afterwards. What a session reports are messages, signals, log records and calls of the
library, never a request: those are the client's own. Each action of a client is described here by
the environment it leaves and by the deeds it adds.

## Main definitions

* `Happening.isDeed`, `Client.deeds`: the requests and the sleeps of a client.
* `Client.publishes`: its requests to publish.
* `Session.Quiet`: a session that makes no requests itself.
* `Client.Does`: what an action leaves of a client.

## Main statements

* `Client.request_run`, `Client.sleep_run`: a request and a sleep add one deed.
* `Client.log_run`: logging adds none.
-/

namespace BrokerLoad

variable {τ σ η : Type}

/-! ## §1 Deeds -/

/-- Whether a happening is something the client did: a request or a sleep. -/
def Happening.isDeed : Happening τ → Bool
  | .request .. | .sleep _ => true
  | _ => false

/-- Whether a happening is a request to publish. -/
def Happening.isPublish : Happening τ → Bool
  | .request (.publish ..) _ => true
  | _ => false

/-- A session that makes no requests itself: what it reports are no deeds of the client. -/
def Session.Quiet (session : Session τ σ) : Prop :=
  ∀ r s, ∀ n ∈ (session.answer r s).1.notes, n.happening.isDeed = false

namespace Client

/-- What a client did so far, in order. -/
def deeds (s : Traced (Note τ) (Client σ η)) : List (Note τ) :=
  s.history.filter (·.happening.isDeed)

/-- The requests to publish so far, in order. -/
def publishes (s : Traced (Note τ) (Client σ η)) : List (Note τ) :=
  s.history.filter (·.happening.isPublish)

/-- From `s` to `t` the environment becomes `env`, the phase stays and the client does `more`. -/
structure Does (s : Traced (Note τ) (Client σ η)) (env : σ) (more : List (Note τ))
    (t : Traced (Note τ) (Client σ η)) : Prop where
  env : t.state.env = env
  phase : t.state.phase = s.state.phase
  deeds : deeds t = deeds s ++ more

/-- Requests to publish are deeds. -/
theorem publishes_eq (s : Traced (Note τ) (Client σ η)) :
    publishes s = (deeds s).filter (·.happening.isPublish) := by
  have hdeed : ∀ n : Note τ, n.happening.isPublish = true → n.happening.isDeed = true := by
    rintro ⟨time, happening⟩ hn
    cases happening with
    | request r phase => rfl
    | _ => cases hn
  rw [publishes, deeds, List.filter_filter]
  refine List.filter_congr fun n _ => ?_
  rw [Bool.eq_iff_iff, Bool.and_eq_true]
  exact ⟨fun h => ⟨h, hdeed n h⟩, And.left⟩

theorem Does.publishes {s t : Traced (Note τ) (Client σ η)} {env : σ} {more : List (Note τ)}
    (h : Does s env more t) :
    publishes t = publishes s ++ more.filter (·.happening.isPublish) := by
  rw [publishes_eq, publishes_eq, h.deeds, List.filter_append]

/-- A deed that is no publish leaves the publishes as they are. -/
theorem Does.publishes_of_other {s t : Traced (Note τ) (Client σ η)} {env : σ} {n : Note τ}
    (h : Does s env [n] t) (hn : n.happening.isPublish = false) :
    Client.publishes t = Client.publishes s := by
  rw [h.publishes, List.filter_cons_of_neg (by simp [hn]), List.filter_nil, List.append_nil]

/-- A note that is no deed does not count. -/
theorem deeds_note_other (s : Traced (Note τ) (Client σ η)) (n : Note τ)
    (hn : n.happening.isDeed = false) : deeds { s with trail := n :: s.trail } = deeds s := by
  simp [deeds, Traced.history, hn]

/-- A note of a deed is the last deed. -/
theorem deeds_note_deed (s : Traced (Note τ) (Client σ η)) (n : Note τ)
    (hn : n.happening.isDeed = true) :
    deeds { s with trail := n :: s.trail } = deeds s ++ [n] := by
  simp [deeds, Traced.history, hn]

/-! ## §2 Actions of a client -/

variable {w : Surroundings τ σ η}

@[simp] theorem runFrom_now (s : Traced (Note τ) (Client σ η)) :
    Action.runFrom (now w) s = (.ok (w.timer.now s.state.env), s) := rfl

@[simp] theorem runFrom_record (h : Happening τ) (s : Traced (Note τ) (Client σ η)) :
    Action.runFrom (record w h) s =
      (.ok (), { s with trail := ⟨w.timer.now s.state.env, h⟩ :: s.trail }) := rfl

/-- The same client in another phase. -/
def inPhase (phase : Phase) (s : Traced (Note τ) (Client σ η)) : Traced (Note τ) (Client σ η) :=
  { s with state := { s.state with phase } }

@[simp] theorem inPhase_env (phase : Phase) (s : Traced (Note τ) (Client σ η)) :
    (inPhase phase s).state.env = s.state.env := rfl

@[simp] theorem publishes_inPhase (phase : Phase) (s : Traced (Note τ) (Client σ η)) :
    publishes (inPhase phase s) = publishes s := rfl

@[simp] theorem runFrom_enter (phase : Phase) (s : Traced (Note τ) (Client σ η)) :
    Action.runFrom (enter phase) s = (.ok (), inPhase phase s) := rfl

theorem log_run (level : Level) (logger text : String) (s : Traced (Note τ) (Client σ η)) :
    ∃ t, Action.runFrom (log w level logger text) s = (.ok (), t) ∧ Does s s.state.env [] t := by
  refine ⟨_, log_eq level logger text s, rfl, rfl, ?_⟩
  rw [remarked, deeds_note_other s _ rfl, List.append_nil]

/-- What is noted for a note that is no deed is no deed either. -/
theorem isDeed_of_mem_noted {n m : Note τ} (hn : n.happening.isDeed = false) (hm : m ∈ w.noted n) :
    m.happening.isDeed = false := by
  unfold Surroundings.noted at hm
  split at hm
  · split at hm
    · rcases List.mem_cons.mp hm with rfl | hm
      · exact hn
      · rw [List.mem_singleton.mp hm]
        rfl
    · rwa [List.mem_singleton.mp hm]
  · rwa [List.mem_singleton.mp hm]

/-- A request adds itself to the deeds, and nothing else. -/
theorem deeds_asked (quiet : w.session.Quiet) (r : Request τ) (s : Traced (Note τ) (Client σ η)) :
    deeds (asked w r s) = deeds s ++ [⟨w.timer.now s.state.env, .request r s.state.phase⟩] := by
  let notes := (w.session.answer r s.state.env).1.notes
  have hnone : (notes.flatMap w.noted).filter (·.happening.isDeed) = [] := by
    refine List.filter_eq_nil_iff.mpr fun m hm => ?_
    obtain ⟨n, hn, hm⟩ := List.mem_flatMap.mp hm
    rw [isDeed_of_mem_noted (quiet r s.state.env n hn) hm]
    exact Bool.false_ne_true
  have hhistory : (asked w r s).history =
      s.history ++ [⟨w.timer.now s.state.env, .request r s.state.phase⟩] ++
        notes.flatMap w.noted := by
    simp [asked, Traced.history, notes]
  rw [deeds, hhistory, List.filter_append, hnone, List.append_nil, List.filter_append]
  rfl

/-- A sleep adds itself to the deeds. -/
theorem deeds_slept (duration : τ) (s : Traced (Note τ) (Client σ η)) :
    deeds (slept w duration s) = deeds s ++ [⟨w.timer.now s.state.env, .sleep duration⟩] :=
  deeds_note_deed s _ rfl

/-- A request is noted, then answered; its outcome is that of the answer. -/
theorem request_run (quiet : w.session.Quiet) (r : Request τ) (s : Traced (Note τ) (Client σ η)) :
    ∃ t, Action.runFrom (request w r) s = ((w.session.answer r s.state.env).1.outcome, t) ∧
      Does s (w.session.answer r s.state.env).2
        [⟨w.timer.now s.state.env, .request r s.state.phase⟩] t :=
  ⟨_, request_eq r s, asked_env r s, asked_phase r s, deeds_asked quiet r s⟩

/-- A sleep is noted, then slept. -/
theorem sleep_run (duration : τ) (s : Traced (Note τ) (Client σ η)) :
    ∃ t, Action.runFrom (sleep w duration) s =
        ((w.timer.sleep duration s.state.env).1.mapError Stop.fault, t) ∧
      Does s (w.timer.sleep duration s.state.env).2
        [⟨w.timer.now s.state.env, .sleep duration⟩] t :=
  ⟨_, sleep_eq duration s, rfl, rfl, deeds_slept duration s⟩

end Client

end BrokerLoad
