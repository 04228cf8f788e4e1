import BrokerLoad.Proofs.Client.Dialogue
import BrokerLoad.Proofs.Client.Loops
import BrokerLoad.Proofs.Number.Places

/-!
# The count of a publisher

A publisher counts what it sends, and the count is that of the publishes that the network library
accepted: each of them is one send of the loop, and no other request publishes. The index of the
next message grows with every send and must be a number that a deadline can be computed from, so the
count is never too long to be written.

## Main definitions

* `deedsOf`: the requests and sleeps among some notes.
* `Publisher.Counts`: a report that tells the truth about some notes.

## Main statements

* `Publisher.Turns.counted`: a loop counts its sends.
* `Publisher.Turns.fits`: the count stays below the index of the next message.
* `Publisher.run_counts`: a run that returns reports the truth.
-/

namespace BrokerLoad

variable {τ σ η : Type}

/-! ## §1 The loop -/

namespace Publisher

section Loop

variable [Seconds τ] {plan : Plan τ} {schedule : Schedule τ} {p q : Progress τ}
  {deals : List (Deal τ)}

omit [Seconds τ] in
/-- Waiting sends nothing. -/
theorem Waits.not_sent {d : Deal τ} (h : Waits d) : d.isSent = false := by
  cases h <;> rfl

/-- A send counts as sent if and only if it ended well. -/
theorem afterSend_sent (plan : Plan τ) (time : τ) {outcome : Except Stop Unit}
    (h : p.afterSend outcome = .ok q) :
    q.sent = p.sent + (if (sendDeal plan time outcome).isSent then 1 else 0) ∧
      q.index = p.index := by
  unfold Progress.afterSend at h
  split at h
  · cases h
    exact ⟨rfl, rfl⟩
  · cases h
    exact ⟨rfl, rfl⟩
  · cases h

omit [Seconds τ] in
/-- A send leaves the index as it is. -/
theorem afterSend_index {outcome : Except Stop Unit} (h : p.afterSend outcome = .ok q) :
    q.index = p.index := by
  unfold Progress.afterSend at h
  split at h <;> cases h <;> rfl

/-- If it can be told which deadline is due, and the next one can be computed, it is that. -/
theorem advanced_of_lastDue {now deadline : τ} {due : Int} (hdue : schedule.lastDue now = .ok due)
    (hdeadline : schedule.deadline (max (q.index + 1) due) = .ok deadline) :
    q.advanced schedule now = .ok { q with index := max (q.index + 1) due, deadline } := by
  rw [Progress.advanced, hdue, Except.bind, hdeadline]
  rfl

/-- The next deadline is that of the next index or, if later, of the last one that is due. -/
theorem exists_of_advanced {now : τ} {r : Progress τ} (h : q.advanced schedule now = .ok r) :
    ∃ due deadline, schedule.lastDue now = .ok due ∧
      schedule.deadline (max (q.index + 1) due) = .ok deadline ∧
      r = { q with index := max (q.index + 1) due, deadline } := by
  unfold Progress.advanced at h
  cases hdue : schedule.lastDue now with
  | error f =>
    rw [hdue] at h
    cases h
  | ok due =>
    rw [hdue, Except.bind] at h
    cases hdeadline : schedule.deadline (max (q.index + 1) due) with
    | error f =>
      rw [hdeadline] at h
      cases h
    | ok deadline =>
      rw [hdeadline] at h
      cases h
      exact ⟨due, deadline, rfl, hdeadline, rfl⟩

/-- The next deadline is that of a higher index, and leaves the count as it is. -/
theorem advanced_eq {now : τ} {r : Progress τ} (h : q.advanced schedule now = .ok r) :
    r.sent = q.sent ∧ q.index + 1 ≤ r.index ∧ schedule.deadline r.index = .ok r.deadline := by
  obtain ⟨due, deadline, -, hdeadline, rfl⟩ := exists_of_advanced h
  exact ⟨rfl, Int.le_max_left _ _, hdeadline⟩

/-- A loop counts its sends. -/
theorem Turns.counted (h : Turns plan schedule p deals (.ok q)) :
    q.sent = p.sent + deals.countP Deal.isSent := by
  generalize hresult : Except.ok q = result at h
  induction h with
  | finished =>
    cases hresult
    rfl
  | waited hd _ _ ih =>
    rw [List.countP_cons, hd.not_sent, ih hresult]
    rfl
  | @sent p q' r time outcome now deals result hafter hadvanced _ ih =>
    rw [ih hresult, (advanced_eq hadvanced).1, (afterSend_sent plan time hafter).1,
      List.countP_cons, Nat.add_assoc, Nat.add_comm (List.countP _ _)]
  | _ => cases hresult

/-- No more was sent than the index of the next message says, and it has a deadline. -/
def Progress.Fits (schedule : Schedule τ) (p : Progress τ) : Prop :=
  (p.sent : Int) ≤ p.index ∧ schedule.deadline p.index = .ok p.deadline

/-- The count stays below the index of the next message. -/
theorem Turns.fits (h : Turns plan schedule p deals (.ok q)) (hp : p.Fits schedule) :
    q.Fits schedule := by
  generalize hresult : Except.ok q = result at h
  induction h with
  | finished =>
    cases hresult
    exact hp
  | waited _ _ _ ih => exact ih hp hresult
  | @sent p q' r time outcome now deals result hafter hadvanced _ ih =>
    obtain ⟨hsent, hindex⟩ := afterSend_sent plan time hafter
    obtain ⟨hsent', hindex', hdeadline⟩ := advanced_eq hadvanced
    refine ih ⟨?_, hdeadline⟩ hresult
    have hbefore := hp.1
    have hone : q'.sent ≤ p.sent + 1 := by
      rw [hsent]
      split <;> omega
    omega
  | _ => cases hresult

end Loop

/-- A deadline is computed from its index, so the index is a number. -/
theorem isWritable_of_fits {schedule : Schedule Double} {p : Progress Double}
    (h : p.Fits schedule) : isWritable p.sent = true := by
  obtain ⟨hsent, hdeadline⟩ := h
  have hindex : ∃ x, Double.ofInt? p.index = .ok x := by
    unfold Schedule.deadline at hdeadline
    split at hdeadline
    · cases hdeadline
    · cases hindex : Double.ofInt? p.index with
      | ok x => exact ⟨x, rfl⟩
      | error f =>
        simp only [Seconds.times, hindex] at hdeadline
        cases hdeadline
  obtain ⟨x, hx⟩ := hindex
  have hbound := natAbs_lt_of_ofInt? hx
  exact isWritable_of_natAbs_lt (Nat.lt_of_le_of_lt (by omega) hbound)

end Publisher

/-! ## §2 A run -/

/-- The requests and the sleeps among some notes. -/
def deedsOf (notes : List (Note τ)) : List (Note τ) := notes.filter (·.happening.isDeed)

namespace Publisher

variable [Seconds τ]

/-- A report tells the truth about the notes of a run. It counts the publishes that the library
accepted, and its time goes from the first thing that the publisher did on the open session to its
request to close it. -/
structure Counts (wire : Wire τ σ) (env : σ) (notes : List (Note τ)) (r : Report τ) : Prop where
  sent : r.sent = (wire.exchanges env notes).countP Exchange.isSent
  elapsed : ∃ hello first rest goodbye, deedsOf notes = hello :: first :: rest ∧
    hello.happening = .request .connect .connecting ∧
    (first :: rest).getLast? = some goodbye ∧
    goodbye.happening = .request .disconnect .disconnecting ∧
    r.elapsed = Seconds.sub goodbye.time first.time

section Told

variable {w : Surroundings τ σ η}

/-- What a publisher did in a run that returned, and what it reports of it: its loop made the deals
`deals` on a schedule and ended with the progress `p`. -/
structure Told (w : Surroundings τ σ η) (s t : Traced (Note τ) (Client σ η)) (r : Report τ)
    (hello goodbye : Deal τ) (deals : List (Deal τ)) (schedule : Schedule τ)
    (p : Progress τ) : Prop where
  course : Client.Course w s (hello :: (deals ++ [goodbye])) t
  greets : hello.Asks .connect .connecting
  parts : goodbye.Asks .disconnect .disconnecting
  report : r = reportOf schedule.start goodbye.note.time p
  counted : p.sent = deals.countP Deal.isSent
  fits : p.Fits schedule
  begins : ∀ first rest, deals ++ [goodbye] = first :: rest → first.note.time = schedule.start

/-- What a publisher did on an open session if that gave a report. -/
theorem Published.returned {plan : Plan τ} {s t : Traced (Note τ) (Client σ η)}
    {deals : List (Deal τ)} {r : Report τ} (h : Published w plan s deals (.ok r) t) :
    ∃ p, r = reportOf (w.timer.now s.state.env) (w.timer.now t.state.env) p ∧
      Client.Course w s deals t ∧ p.sent = deals.countP Deal.isSent ∧
      p.Fits (scheduleOf plan (w.timer.now s.state.env)) := by
  generalize hend : Except.ok r = outcome at h
  cases h with
  | unfit | unscheduled => cases hend
  | @turned first _ result _ hfirst hcourse _ hturns =>
    cases result with
    | error stop => cases hend
    | ok p =>
      cases hend
      have hcount := hturns.counted
      rw [Nat.zero_add] at hcount
      exact ⟨p, rfl, hcourse, hcount, hturns.fits ⟨Int.le_refl 0, hfirst⟩⟩

/-- A run that returns has a session in which the loop came to its end. -/
theorem run_told {plan : Plan τ} {tuning : Tuning τ} {n : Nat} {s t : Traced (Note τ) (Client σ η)}
    {r : Report τ} (h : Action.runFrom (run w plan tuning n) s = (.ok r, t)) :
    ∃ hello goodbye deals schedule p, Told w s t r hello goodbye deals schedule p := by
  rw [run, Action.runFrom_bind] at h
  have hsession := Client.sessionEnd_run (w := w) (publishAll w plan tuning n) s
  cases hrun : Action.runFrom (Client.onSession w (publishAll w plan tuning n)) s with
  | mk outcome u =>
    rw [hrun] at h hsession
    cases outcome with
    | error stop => cases h
    | ok report =>
      cases h
      obtain ⟨v, hbody, hclosed⟩ := hsession.returned
      obtain rfl : u = Client.closed w (Client.inPhase .disconnecting v) := hclosed
      let begun := Client.inPhase .connected (Client.opened w s)
      obtain ⟨deals, hpublished⟩ := publishAll_published (w := w) plan tuning n begun
      rw [hbody] at hpublished
      obtain ⟨p, hreport, hcourse, hcount, hfits⟩ := hpublished.returned
      have hwork : Client.Course w begun
          (deals ++ [Client.requestDeal w .disconnect (Client.inPhase .disconnecting v)])
          (Client.closed w (Client.inPhase .disconnecting v)) :=
        (hcourse.enter .disconnecting).trans (Client.closed_course _)
      refine ⟨Client.requestDeal w .connect (Client.inPhase .connecting s),
        Client.requestDeal w .disconnect (Client.inPhase .disconnecting v), deals,
        scheduleOf plan (w.timer.now begun.state.env), p,
        ⟨(((Client.opened_course s).enter .connected).trans hwork).log _, rfl, rfl, hreport, hcount,
          hfits, ?_⟩⟩
      intro first rest hfirst
      rw [hfirst] at hwork
      exact hwork.head_time

end Told

variable {c : Connection τ} {wire : Wire τ σ} {fuel : Nat} {handler : Handler τ η} {heeds : Bool}
  {memory : Nat} {s t : Traced (Note τ) (Client (Line σ) η)} {r : Report τ} {hello goodbye : Deal τ}
  {deals : List (Deal τ)} {schedule : Schedule τ} {p : Progress τ}

/-- On a connection a report tells the truth. -/
theorem Told.counts
    (h : Told (c.surroundings wire fuel handler heeds memory) s t r hello goodbye deals schedule p) :
    ∃ notes, t.history = s.history ++ notes ∧ Counts wire s.state.env.env notes r := by
  obtain ⟨notes, xs, hcarries, hdialogue⟩ := Client.course_dialogue h.course
  have hdeeds : deedsOf notes = (hello :: (deals ++ [goodbye])).map Deal.note := by
    have hall := h.course.deeds (c.session_quiet wire fuel)
    rw [Client.deeds, Client.deeds, hcarries.history, List.filter_append] at hall
    exact List.append_cancel_left hall
  refine ⟨notes, hcarries.history, ?_, ?_⟩
  · have hsent : (hello :: (deals ++ [goodbye])).countP Deal.isSent = deals.countP Deal.isSent := by
      have hhello : hello.isSent = false := by rw [Deal.isSent, h.greets]
      have hgoodbye : goodbye.isSent = false := by rw [Deal.isSent, h.parts]
      rw [List.countP_cons, List.countP_append, List.countP_singleton, hhello, hgoodbye]
      rfl
    rw [hcarries.exchanges, hdialogue.sent, hsent, ← h.counted, h.report]
    rfl
  · cases hwork : deals ++ [goodbye] with
    | nil => exact absurd hwork (List.append_ne_nil_of_right_ne_nil _ (List.cons_ne_nil _ _))
    | cons first rest =>
      rw [hwork] at hdeeds
      refine ⟨hello.note, first.note, rest.map Deal.note, goodbye.note, hdeeds, h.greets, ?_,
        h.parts, ?_⟩
      · have hlast : (first :: rest).getLast? = some goodbye := by
          rw [← hwork, List.getLast?_concat]
        rw [← List.map_cons, List.getLast?_map, hlast]
        rfl
      · rw [h.report, h.begins first rest hwork]
        rfl

/-- A run that returns reports the truth. -/
theorem run_counts {plan : Plan τ} {tuning : Tuning τ} {n : Nat}
    (h : Action.runFrom (run (c.surroundings wire fuel handler heeds memory) plan tuning n) s =
      (.ok r, t)) :
    ∃ notes, t.history = s.history ++ notes ∧ Counts wire s.state.env.env notes r := by
  obtain ⟨hello, goodbye, deals, schedule, p, htold⟩ := run_told h
  exact htold.counts

/-- The count that a run returns can be written down. -/
theorem isWritable_of_run {w : Surroundings Double σ η} {plan : Plan Double}
    {tuning : Tuning Double} {n : Nat} {s t : Traced (Note Double) (Client σ η)}
    {r : Report Double} (h : Action.runFrom (run w plan tuning n) s = (.ok r, t)) :
    isWritable r.sent = true := by
  obtain ⟨hello, goodbye, deals, schedule, p, htold⟩ := run_told h
  rw [htold.report]
  exact isWritable_of_fits htold.fits

end Publisher

end BrokerLoad
