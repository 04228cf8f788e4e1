import BrokerLoad.Proofs.Fleet.Rules

/-!
# Starting processes

Starting a client opens a record, calls the launcher once, and leaves the record with a process or
settled, unless the launcher raises something that is no refusal or the command line cannot be
written. Then the run stops with a record that is open and has no process.

## Main definitions

* `Fleet.Spawned`: what a client that was started or refused leaves.
* `Fleet.Balked`: what a client that stopped the run leaves.

## Main statements

* `Fleet.spawn_meets`: every start is one of these.
* `Fleet.spawnFrom_meets`: a loop of starts.
-/

namespace BrokerLoad

variable {τ σ π : Type} [Seconds τ]

/-- The deeds of starting `count` clients of a role. -/
def Deed.Starts (y : Yard τ σ π) (role : Role) (count : Nat) : Deed τ π → Prop
  | .enlist role' index => role' = role ∧ ∃ k < count, index = (k : Int)
  | .launch argv capture => argv = Fleet.commandLine y role ∧ capture = Fleet.captureOf role
  | .log _ | .settle .. => True
  | _ => False

namespace Fleet

/-! ## §1 How a start may end -/

/-- The world with a record opened for a client. -/
def World.enlisted (w : World τ σ π) (role : Role) (index : Int) : World τ σ π :=
  (w.noted (.enlist role index)).opened { role, index }

/-- The call of the launcher for a client of a role. -/
def launchDeed (y : Yard τ σ π) (role : Role) : Deed τ π :=
  .launch (commandLine y role) (captureOf role)

/-- What a client that was started or refused leaves. -/
inductive Spawned (y : Yard τ σ π) (role : Role) (index : Int) (w : World τ σ π) :
    World τ σ π → Prop where
  | launched {p : π} {env : σ} {record : LogRecord}
      (hnumbers : (commandNumbers y role).all isWritable = true)
      (hanswer : y.host.launch (commandLine y role) (captureOf role) w.state.env = (.ok p, env)) :
      Spawned y role index w
        ((((w.enlisted role index).after (launchDeed y role) env).changed w.state.records.length
          fun r => { r with process := some p }).noted (.log record))
  | refused {f : Fault} {env : σ} {record : LogRecord} {reason : String}
      (hnumbers : (commandNumbers y role).all isWritable = true)
      (hanswer : y.host.launch (commandLine y role) (captureOf role) w.state.env = (.error f, env))
      (hrefusal : refusal? f ≠ none) :
      Spawned y role index w
        (((((w.enlisted role index).after (launchDeed y role) env).noted (.log record)).noted
          (.settle w.state.records.length .failure none (some reason))).changed
          w.state.records.length fun r => r.settle .failure none (some reason))

/-- What a client that stopped the run leaves. -/
inductive Balked (y : Yard τ σ π) (role : Role) (index : Int) (w : World τ σ π) :
    Fault → World τ σ π → Prop where
  | unwritable (hnumbers : (commandNumbers y role).all isWritable = false) :
      Balked y role index w (.value .unwritableInteger) (w.enlisted role index)
  | raised {f : Fault} {env : σ}
      (hanswer : y.host.launch (commandLine y role) (captureOf role) w.state.env = (.error f, env))
      (hrefusal : refusal? f = none) :
      Balked y role index w f ((w.enlisted role index).after (launchDeed y role) env)

variable {y : Yard τ σ π} {F : Fates σ π} {role : Role} {index : Int} {w u : World τ σ π}

omit [Seconds τ] in
@[simp] theorem World.record?_enlisted :
    (w.enlisted role index).record? w.state.records.length = some { role, index } := by
  simp [World.enlisted, World.record?_opened]

/-! ## §2 Single starts and loops -/

/-- A start opens a record and calls the launcher once. -/
theorem spawn_meets (y : Yard τ σ π) (role : Role) (index : Int) (w : World τ σ π) :
    (spawn y role index).Meets (· = w) (fun _ => Spawned y role index w)
      (Action.Faulty (Balked y role index w)) := by
  intro v heq
  subst heq
  simp only [spawn, start, Action.runFrom_bind, enlist_run]
  -- the command line is written before the launcher is called
  cases hnumbers : (commandNumbers y role).all isWritable with
  | false => exact .unwritable hnumbers
  | true =>
    simp only [Bool.not_true, Bool.false_eq_true, if_false, Action.runFrom_pure,
      Action.runFrom_bind, launch_run]
    cases hanswer : y.host.launch (commandLine y role) (captureOf role) v.state.env with
    | mk answer env =>
      simp only [World.opened_env, World.noted_state, hanswer]
      cases answer with
      | ok p => exact .launched hnumbers hanswer
      | error f =>
        -- a refusal is recorded, any other fault of the launcher is raised again
        cases hrefusal : refusal? f with
        | none =>
          simp only [hrefusal]
          exact Balked.raised hanswer hrefusal
        | some reason =>
          simp only [hrefusal]
          exact Spawned.refused hnumbers hanswer (by simp [hrefusal])

/-- A loop of starts: every start keeps the invariant or stops the run. -/
theorem spawnFrom_meets (y : Yard τ σ π) (role : Role) (first count : Nat)
    {I : Nat → World τ σ π → Prop} {E : Fault → World τ σ π → Prop}
    (hstep : ∀ k w u, first ≤ k → k < first + count → I k w → Spawned y role k w u → I (k + 1) u)
    (hbalk : ∀ k w f u, first ≤ k → k < first + count → I k w → Balked y role k w f u → E f u) :
    (spawnFrom y role first count).Meets (I first) (fun _ => I (first + count))
      (Action.Faulty E) := by
  -- induction on how many starts are left, for any first index
  induction count generalizing first with
  | zero => exact Action.Meets.pure fun _ => id
  | succ count ih =>
    have hone : (discard (spawn y role first)).Meets (I first) (fun _ => I (first + 1))
        (Action.Faulty E) := by
      refine Action.Meets.of_eq fun w hw => Action.Meets.discard ?_
      refine (spawn_meets y role first w).mono (fun _ => id) ?_ (Action.Faulty.mono ?_)
      · exact fun _ u hu => hstep first w u (Nat.le_refl _) (by omega) hw hu
      · exact fun f u hu => hbalk first w f u (Nat.le_refl _) (by omega) hw hu
    apply Action.Meets.bind hone
    intro _
    have hrest := @ih (first + 1)
      (fun k w u h1 h2 => hstep k w u (by omega) (by omega))
      (fun k w f u h1 h2 => hbalk k w f u (by omega) (by omega))
    -- the rest ends where the whole loop does
    rw [Nat.add_right_comm, Nat.add_assoc] at hrest
    exact hrest

/-! ## §3 Starts as steps -/

theorem Spawned.path {count k : Nat} (hk : k < count) (h : Spawned y role k w u) :
    Path y.host F (Deed.Starts y role count) w u := by
  have henlist : Step y.host F (Deed.Starts y role count) w (w.enlisted role k) :=
    .enlist ⟨rfl, k, hk, rfl⟩
  cases h with
  -- open, launch, log: the process goes to the record that was opened
  | @launched p env record _ hanswer =>
    refine ((Relation.ReflTransGen.single henlist).tail ?_).tail (.log trivial)
    exact .launched ⟨rfl, rfl⟩ hanswer World.record?_enlisted rfl rfl
  -- open, launch, log, settle: the record has no process to wait for
  | @refused f env record reason _ hanswer _ =>
    have hcall : Step y.host F (Deed.Starts y role count) (w.enlisted role k)
        ((w.enlisted role k).after (launchDeed y role) env) := .refused ⟨rfl, rfl⟩ hanswer
    have hlog : Step y.host F (Deed.Starts y role count)
        ((w.enlisted role k).after (launchDeed y role) env)
        (((w.enlisted role k).after (launchDeed y role) env).noted (.log record)) := .log trivial
    apply (((Relation.ReflTransGen.single henlist).tail hcall).tail hlog).tail
    exact .settle trivial World.record?_enlisted rfl (by simp) fun _ hp => nomatch hp

theorem Balked.fails {count k : Nat} (hk : k < count) {f : Fault} (h : Balked y role k w f u) :
    Path y.host F (Deed.Starts y role count) w (w.enlisted role k) ∧
      Fails y F (Deed.Starts y role count) (w.enlisted role k) f u := by
  refine ⟨.single (.enlist ⟨rfl, k, hk, rfl⟩), ?_⟩
  cases h with
  | unwritable hnumbers => exact .unwritable ⟨rfl, k, hk, rfl⟩ hnumbers
  -- what the launcher raised is no refusal, so the run does not go on from it
  | @raised _ env hanswer hrefusal =>
    have hperform : y.host.perform (launchDeed y role) w.state.env = (.error f, env) := by
      simp only [launchDeed, Host.perform, bare, hanswer]
      rfl
    have hhandles : (launchDeed y role).handles f = false := by
      simp [launchDeed, Deed.handles, hrefusal]
    exact .raised ⟨rfl, rfl⟩ ⟨f, by exact congrArg Prod.fst hanswer⟩ hperform hhandles

theorem spawnFrom_goes (F : Fates σ π) (y : Yard τ σ π) (role : Role) (count : Nat) :
    Goes y F (Deed.Starts y role count) (fun _ => True) (spawnFrom y role 0 count)
      fun _ _ => True := by
  intro w _
  -- the invariant of the loop is the path so far
  refine (spawnFrom_meets y role 0 count
    (I := fun _ u => Path y.host F (Deed.Starts y role count) w u)
    (E := fun f u => ∃ v, Path y.host F (Deed.Starts y role count) w v ∧
      Fails y F (Deed.Starts y role count) v f u) ?_ ?_).mono ?_ ?_ (fun _ _ => id)
  · intro k v u _ hk hpath hspawned
    exact hpath.trans (hspawned.path (by omega))
  · intro k v f u _ hk hpath hbalked
    obtain ⟨hopened, hfails⟩ := hbalked.fails (F := F) (by omega : k < count)
    exact ⟨_, hpath.trans hopened, hfails⟩
  · intro _ heq
    subst heq
    exact .refl
  · exact fun _ u hpath => ⟨hpath, trivial⟩

end Fleet

end BrokerLoad
