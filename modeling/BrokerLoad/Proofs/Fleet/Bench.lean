import BrokerLoad.Fleet.Program
import BrokerLoad.Proofs.Fleet.Step

/-!
# A small machine

A machine on which whole runs can be evaluated. It knows which processes were launched and which have
ended, all its clocks stand still, and every wait ends the process. What the launcher and the sleep
answer and what the publishers write is given.

## Main definitions

* `Bench.host`, `Bench.yard`: the machine, and what a run needs to use it.
* `Bench.fates`: what it tells about processes.
* `Bench.hanging`: a machine on which every client hangs.
* `Bench.prompt`: a machine on which every client ends at once.

## Main statements

* `Bench.respects`: what it tells is true.
* `Bench.answers`: which of these machines answers every call.
-/

namespace BrokerLoad

namespace Bench

/-- The processes that were launched and those that have ended. -/
structure Site where
  launched : List Nat := []
  ended : List Nat := []

/-- The site where a process has ended. -/
def Site.end (s : Site) (p : Nat) : Site := { s with ended := p :: s.ended }

/-- The machine: the launcher and the sleep answer as given, and so do the publishers' outputs. -/
def host (launching sleeping : Except Fault Unit) (output : Option String) : Host Rat Site Nat where
  now s := (.ok 0, s)
  sleep _ s := (sleeping, s)
  launch _ _ s :=
    match launching with
    | .ok _ => (.ok s.launched.length, { s with launched := s.launched ++ [s.launched.length] })
    | .error f => (.error f, s)
  poll p s := (.ok (if p ∈ s.ended then some 0 else none), s)
  collect p s := (.ok (output, some 0), s.end p)
  collectWithin p _ s := (.ok (some (output, some 0)), s.end p)
  await p s := (.ok (some (-9)), s.end p)
  awaitWithin p _ s := (.ok (some (some (-15))), s.end p)
  terminate _ s := (.ok (), s)
  kill p s := (.ok (), s.end p)
  pid p := p

/-- Everything that is looked for is there. -/
def workshop : Workshop Site where
  sources := "src"
  compile _ s := (true, s)
  command _ s := (.ok (), s)
  isFile _ s := (true, s)
  isExecutable _ s := (true, s)

/-- The settings of the clients. -/
def settings : ClientSettings where
  broker := { host := "localhost" }
  topic := "load"
  qos := 0
  keepalive := 60
  username := none
  password := none
  topic_ne := by decide
  qos_mem := by decide
  keepalive_pos := by decide

/-- What a run with some publishers and subscribers needs. -/
def yard (host : Host Rat Site Nat) (publishers subscribers : Nat) : Yard Rat Site Nat where
  host := host
  workshop := workshop
  plan := { publishers, subscribers, payloadSize := 1, duration := 1, interval := 1, settings,
            duration_pos := by decide, interval_pos := by decide }
  build := .bundled "python"
  patience := .standard

/-- One publisher and one subscriber; the run is interrupted while that warms up. -/
def interrupted : Yard Rat Site Nat := yard (host (.ok ()) (.error .interrupted) none) 1 1

/-- One publisher; the launcher cannot pass its command line on. -/
def unpassable : Yard Rat Site Nat :=
  yard (host (.error (.value (.other "embedded null byte"))) (.ok ()) none) 1 0

/-- One publisher; its output has a superscript for a count. -/
def superscript : Yard Rat Site Nat :=
  yard (host (.ok ()) (.ok ()) (some "PID 1 sent ² messages")) 1 0

/-- One publisher and one subscriber; the publisher's output has a count. -/
def counted : Yard Rat Site Nat :=
  yard (host (.ok ()) (.ok ()) (some "PID 1 sent 5 messages")) 1 1

/-- No run was made yet. -/
def fresh : Fleet Rat Site Nat := { env := {} }

/-- A process that was killed or waited for has ended. -/
def fates : Fates Site Nat where
  launched s p := p ∈ s.launched
  ending s p := p ∈ s.ended
  exited s p := p ∈ s.ended

/-- A machine on which every client hangs, until it is killed. Its state is the time on its clock: a
wait takes all the time that it is given. -/
def hanging : Host Rat Rat Unit where
  now s := (.ok s, s)
  sleep time s := (.ok (), s + time)
  launch _ _ s := (.ok (), s)
  poll _ s := (.ok none, s)
  collect _ s := (.ok (none, some (-9)), s)
  collectWithin _ limit s := (.ok none, s + limit)
  await _ s := (.ok (some (-9)), s)
  awaitWithin _ limit s := (.ok none, s + limit)
  terminate _ s := (.ok (), s)
  kill _ s := (.ok (), s)
  pid _ := 1

/-- Three publishers and two subscribers, which all hang. -/
def hung : Yard Rat Rat Unit where
  host := hanging
  workshop :=
    { sources := "src", compile := fun _ s => (true, s), command := fun _ s => (.ok (), s),
      isFile := fun _ s => (true, s), isExecutable := fun _ s => (true, s) }
  plan := { publishers := 3, subscribers := 2, payloadSize := 1, duration := 1, interval := 1,
            settings, duration_pos := by decide, interval_pos := by decide }
  build := .bundled "python"
  patience := ⟨some 2, some 10, some 3⟩

/-- A machine on which every client ends at once, and every publisher reports five messages in two
seconds. The sleep answers as given. -/
def prompt (sleeping : Double → Except Fault Unit) : Host Double Unit Unit where
  now s := (.ok 0, s)
  sleep time s := (sleeping time, s)
  launch _ _ s := (.ok (), s)
  poll _ s := (.ok (some 0), s)
  collect _ s := (.ok (some "sent=5 elapsed=2.000", some 0), s)
  collectWithin _ _ s := (.ok (some (some "sent=5 elapsed=2.000", some 0)), s)
  await _ s := (.ok (some 0), s)
  awaitWithin _ _ s := (.ok (some (some 0)), s)
  terminate _ s := (.ok (), s)
  kill _ s := (.ok (), s)
  pid _ := 7

/-- What a program needs to use it. -/
def promptly (sleeping : Double → Except Fault Unit) : RunnerProgram.Setting Unit Unit where
  host := prompt sleeping
  workshop :=
    { sources := "src", compile := fun _ s => (true, s), command := fun _ s => (.ok (), s),
      isFile := fun _ s => (true, s), isExecutable := fun _ s => (true, s) }
  interpreter := "python"

variable (launching sleeping : Except Fault Unit) (output : Option String)

theorem ended_perform (d : Deed Rat Nat) (s : Site) {p : Nat} (hp : p ∈ s.ended) :
    p ∈ ((host launching sleeping output).perform d s).2.ended := by
  cases d with
  | collect q limit =>
    cases limit <;> simp [Host.perform, bare, host, Site.end, hp]
  | await q limit => cases limit <;> simp [Host.perform, bare, host, Site.end, hp]
  | kill q => simp [Host.perform, bare, host, Site.end, hp]
  | launch argv capture => cases launching <;> simpa [Host.perform, bare, host] using hp
  | _ => exact hp

theorem launched_perform (d : Deed Rat Nat) (s : Site) {p : Nat}
    (hp : p ∈ ((host launching sleeping output).perform d s).2.launched) :
    p ∈ s.launched ∨ ∃ argv capture, d = .launch argv capture ∧
      ((host launching sleeping output).launch argv capture s).1 = .ok p := by
  cases d with
  | launch argv capture =>
    cases launching with
    | error f => exact .inl hp
    | ok _ =>
      -- the new process stands behind those that were launched before
      rcases List.mem_append.1 hp with hp | hp
      · exact .inl hp
      · obtain rfl := List.mem_singleton.1 hp
        exact .inr ⟨argv, capture, rfl, rfl⟩
  | collect q limit => cases limit <;> exact .inl hp
  | await q limit => cases limit <;> exact .inl hp
  | _ => exact .inl hp

/-- When the launcher and the sleep answer, every call does. -/
theorem answers (d : Deed Rat Nat) (s : Site) :
    ((host (.ok ()) (.ok ()) output).perform d s).1 = .ok () := by
  cases d with
  | collect q limit => cases limit <;> rfl
  | await q limit => cases limit <;> rfl
  | _ => rfl

/-- The machine respects what it tells about processes. -/
theorem respects : (host launching sleeping output).Respects fates where
  launched := launched_perform launching sleeping output _ _
  stays_ending d hp := ended_perform launching sleeping output d _ hp
  stays_exited d hp := ended_perform launching sleeping output d _ hp
  poll := by
    intro p s t code hanswer
    simp only [host, Prod.mk.injEq, Except.ok.injEq] at hanswer
    obtain ⟨hcode, rfl⟩ := hanswer
    -- only a process that has ended gives an exit code
    by_cases hp : p ∈ s.ended
    · exact hp
    · rw [if_neg hp] at hcode
      cases hcode
  kill := by
    intro p s t h
    cases h
    exact List.mem_cons_self ..
  collect := by
    intro p s t a h
    cases h
    exact List.mem_cons_self ..
  collectWithin := by
    intro p limit s t a h
    cases h
    exact List.mem_cons_self ..
  await := by
    intro p s t code h
    cases h
    exact List.mem_cons_self ..
  awaitWithin := by
    intro p limit s t code h
    cases h
    exact List.mem_cons_self ..

end Bench

end BrokerLoad
