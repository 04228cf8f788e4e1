import BrokerLoad.Proofs.Fleet.Step

/-!
# Making sure that there is a client

Before anything is started a run makes sure that there is a client. Whatever comes of it, this only
logs, compiles, or runs the build command; no record is opened and no process is touched.

## Main definitions

* `Deed.Builds`: the deeds of making sure that there is a client.
* `Build.Steadfast`: what neither these deeds nor the calls on the workshop can change.
* `Build.Keeps`: an action that leaves something as it is, however it ends.
* `Fleet.ensured`: making sure that there is the client of a run.

## Main statements

* `Build.ensure_keeps`: making sure that there is a client keeps what is steadfast.
* `Fleet.ensureBuilt_run`: what is there before the phases of a run begin.
-/

namespace BrokerLoad

variable {τ σ π α β : Type}

/-- The deeds of making sure that there is a client. -/
def Deed.Builds : Deed τ π → Prop
  | .log _ | .compile _ | .command _ => True
  | _ => False

namespace Build

/-- What neither the deeds of a build nor its calls on the workshop can change. -/
structure Steadfast (shop : Workshop σ) (P : Traced (Deed τ π) σ → Prop) : Prop where
  noted : ∀ s (d : Deed τ π), d.Builds → P s → P { s with trail := d :: s.trail }
  compile : ∀ s directory, P s → P { s with state := (shop.compile directory s.state).2 }
  command : ∀ s argv, P s → P { s with state := (shop.command argv s.state).2 }
  isFile : ∀ s path, P s → P { s with state := (shop.isFile path s.state).2 }
  isExecutable : ∀ s path, P s → P { s with state := (shop.isExecutable path s.state).2 }

/-- An action that keeps a property, however it ends. -/
def Keeps (P : Traced (Deed τ π) σ → Prop) (a : Act τ σ π α) : Prop :=
  a.Meets P (fun _ => P) (fun _ => P)

namespace Keeps

variable {P : Traced (Deed τ π) σ → Prop}

theorem bind {x : Act τ σ π β} {f : β → Act τ σ π α} (hx : Keeps P x)
    (hf : ∀ b, Keeps P (f b)) : Keeps P (x >>= f) :=
  Action.Meets.bind hx hf

theorem pure (a : α) : Keeps P (Pure.pure a : Act τ σ π α) :=
  Action.Meets.pure fun _ => id

theorem fail (f : Fault) : Keeps P (Action.fail f : Act τ σ π α) :=
  Action.Meets.fail fun _ => id

theorem ofExcept (e : Except Fault α) : Keeps P (Action.ofExcept e : Act τ σ π α) :=
  Action.Meets.ofExcept (fun _ _ _ => id) fun _ _ _ => id

theorem note {d : Deed τ π} (hd : ∀ s, P s → P { s with trail := d :: s.trail }) :
    Keeps P (Traced.note d : Act τ σ π Unit) :=
  hd

theorem ask {f : σ → α × σ} (hf : ∀ s, P s → P { s with state := (f s.state).2 }) :
    Keeps P (Build.ask f : Act τ σ π α) :=
  hf

theorem ite {c : Prop} [Decidable c] {a b : Act τ σ π α} (ha : Keeps P a) (hb : Keeps P b) :
    Keeps P (if c then a else b) := by
  by_cases hc : c
  · rw [if_pos hc]
    exact ha
  · rw [if_neg hc]
    exact hb

end Keeps

variable {shop : Workshop σ} {P : Traced (Deed τ π) σ → Prop}

theorem runCommand_keeps (hP : Steadfast shop P) (c : BuildCommand) :
    Keeps P (runCommand shop c : Act τ σ π Unit) := by
  unfold runCommand
  refine (Keeps.note fun s => hP.noted s _ (by trivial)).bind fun _ => ?_
  refine (Keeps.ofExcept _).bind fun argv => ?_
  refine (Keeps.note fun s => hP.noted s _ (by trivial)).bind fun _ => ?_
  refine (Keeps.ask fun s => hP.command s argv).bind fun answer => ?_
  -- what the command answers only decides which fault there is
  split
  · exact .pure ()
  · exact .fail _
  · exact .fail _
  · exact .fail _

/-- Making sure that there is a client keeps what is steadfast. -/
theorem ensure_keeps (hP : Steadfast shop P) (b : Build) :
    Keeps P (b.ensure shop : Act τ σ π Unit) := by
  cases b with
  | bundled interpreter =>
    refine (Keeps.note fun s => hP.noted s _ (by trivial)).bind fun _ => ?_
    refine (Keeps.note fun s => hP.noted s _ (by trivial)).bind fun _ => ?_
    exact (Keeps.ask fun s => hP.compile s _).bind fun _ => .ite (.fail _) (.pure ())
  | external executable command =>
    -- both questions about the executable are asked however it was built
    have hexecutable : Keeps P (do
        if !(← Build.ask (shop.isExecutable executable)) then
          Action.fail (.build (.notExecutable executable)) : Act τ σ π Unit) :=
      (Keeps.ask fun s => hP.isExecutable s _).bind fun _ => .ite (.fail _) (.pure ())
    have hchecks : Keeps P (do
        if !(← Build.ask (shop.isFile executable)) then
          Action.fail (.build (.missing executable))
        if !(← Build.ask (shop.isExecutable executable)) then
          Action.fail (.build (.notExecutable executable)) : Act τ σ π Unit) :=
      (Keeps.ask fun s => hP.isFile s _).bind fun _ => .ite ((Keeps.fail _).bind fun _ => hexecutable)
        hexecutable
    -- an empty command is as good as none
    cases command with
    | none => exact hchecks
    | some c => exact .ite ((runCommand_keeps hP c).bind fun _ => hchecks) hchecks

/-- A trail that went on with building deeds only. -/
def Extends (trail : List (Deed τ π)) (s : Traced (Deed τ π) σ) : Prop :=
  ∃ new, s.trail = new ++ trail ∧ ∀ d ∈ new, d.Builds

theorem steadfast_extends (shop : Workshop σ) (trail : List (Deed τ π)) :
    Steadfast shop (Extends (σ := σ) trail) where
  noted s d hd hs := by
    obtain ⟨new, hnew, hall⟩ := hs
    exact ⟨d :: new, congrArg (d :: ·) hnew, List.forall_mem_cons.2 ⟨hd, hall⟩⟩
  compile _ _ := id
  command _ _ := id
  isFile _ _ := id
  isExecutable _ _ := id

end Build

namespace Fleet

variable [Seconds τ]

/-- Making sure that there is the client of a run, with nothing done before: how it ended, and what
it left. -/
def ensured (y : Yard τ σ π) (env : σ) : Except Stop Unit × Traced (Deed τ π) σ :=
  Action.runFrom (y.build.ensure y.workshop) ⟨env, []⟩

/-- What is steadfast is as it was when it is sure that there is a client, or that there is none. -/
theorem ensureBuilt_keeps {y : Yard τ σ π} {P : Traced (Deed τ π) σ → Prop}
    (hP : Build.Steadfast y.workshop P) (w : World τ σ π) (hw : P ⟨w.state.env, w.trail⟩) :
    P ⟨(Action.runFrom (ensureBuilt y) w).2.state.env, (Action.runFrom (ensureBuilt y) w).2.trail⟩ := by
  have hensure := Build.ensure_keeps hP y.build ⟨w.state.env, w.trail⟩ hw
  simp only [ensureBuilt, Action.runFrom_ofFunction]
  -- the environment and the trail are the build's, however that ended
  cases hrun : Action.runFrom (y.build.ensure y.workshop) ⟨w.state.env, w.trail⟩ with
  | mk outcome t =>
    rw [hrun] at hensure
    cases outcome with
    | ok _ => exact hensure
    | error stop => exact hensure

/-- Making sure that there is a client leaves the records alone. -/
theorem ensureBuilt_run (y : Yard τ σ π) (w : World τ σ π) :
    (Action.runFrom (ensureBuilt y) w).2.state.records = w.state.records ∧
      ∃ new, (Action.runFrom (ensureBuilt y) w).2.trail = new ++ w.trail ∧ ∀ d ∈ new, d.Builds :=
  ⟨rfl, ensureBuilt_keeps (Build.steadfast_extends y.workshop w.trail) w ⟨[], rfl, by simp⟩⟩

end Fleet

end BrokerLoad
