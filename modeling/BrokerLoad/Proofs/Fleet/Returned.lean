import BrokerLoad.Proofs.Fleet.Account
import BrokerLoad.Proofs.Number.Written

/-!
# What a run returns

The summary of a run that returns has the records of all clients. The counts in it were read from
outputs, so each of them can be written, though their sum may be too long for that.

## Main definitions

* `Fleet.Returned`: a summary that a run can return.

## Main statements

* `isWritable_of_sent?`: a count that was read from an output can be written.
* `Fleet.Returned.text_iff`: when the report on such a run can be printed.
* `Fleet.returned_of_ok`: what is known of a summary that was returned.
-/

namespace BrokerLoad

variable {τ σ π : Type} [Seconds τ]

/-! ## §1 Counts -/

theorem isWritable_of_readCount {text : String} {n : Int} (h : Report.readCount text = .ok n) :
    isWritable n = true := by
  unfold Report.readCount at h
  split at h
  · next hread =>
    obtain rfl := Except.ok.inj h
    exact isWritable_of_readInteger hread
  · cases h

theorem isWritable_of_parse {text : String} {r : Report τ} (h : Report.parse text = .ok r) :
    isWritable r.sent = true := by
  obtain ⟨value, _, h⟩ := exists_of_bind_ok h
  obtain ⟨n, hcount, h⟩ := exists_of_bind_ok h
  obtain ⟨value, _, h⟩ := exists_of_bind_ok h
  split at h
  · obtain rfl := Except.ok.inj h
    exact isWritable_of_readCount hcount
  · cases h

theorem isWritable_of_readLine {line : List Char} {n : Int}
    (h : (readLine line : Finding τ).sent? = some n) : isWritable n = true := by
  unfold readLine at h
  split at h
  · split at h
    · next hparse =>
      obtain rfl := Option.some.inj h
      exact isWritable_of_parse hparse
    · cases h
  · split at h
    · next first second third count fifth _ =>
      split at h
      · cases hcount : Report.readCount (String.ofList count) with
        | error f =>
          rw [hcount] at h
          cases h
        | ok m =>
          rw [hcount] at h
          obtain rfl := Option.some.inj h
          exact isWritable_of_readCount hcount
      · cases h
    · cases h

/-- A count that was read from an output can be written. -/
theorem isWritable_of_sent? {output : String} {n : Int}
    (h : (findReport output : Finding τ).sent? = some n) : isWritable n = true := by
  have hfirst : ∀ rows : List (List Char),
      (firstFinding rows : Finding τ).sent? = some n → isWritable n = true := by
    intro rows
    induction rows with
    | nil => intro hnone; cases hnone
    | cons line rest ih =>
      intro hsent
      unfold firstFinding at hsent
      split at hsent
      · exact ih hsent
      · exact isWritable_of_readLine hsent
  exact hfirst _ h

/-! ## §2 Summaries -/

namespace Fleet

variable {y : Yard τ σ π} {fleet : Fleet τ σ π} {sum : Summary τ π}

/-- A summary that a run can return: it has the records of all clients in order, and every count in
it can be written. -/
structure Returned (y : Yard τ σ π) (sum : Summary τ π) : Prop where
  built : sum.buildFailed = false
  roster : sum.records.map (fun r => (r.role, r.index)) = roster y
  sent : ∀ r ∈ sum.records, ∀ n ∈ r.sent, isWritable n = true

/-- The report on a run can be printed if the number of messages can be written. -/
theorem Returned.text_iff (h : Returned y sum) :
    (∃ text, sum.text = .ok text) ↔ isWritable sum.messagesSent = true := by
  cases hmessages : isWritable sum.messagesSent with
  | true =>
    rw [Summary.text_of_writable h.built hmessages]
    exact iff_of_true ⟨_, rfl⟩ rfl
  | false =>
    rw [Summary.text_of_unwritable h.built hmessages]
    exact iff_of_false nofun Bool.false_ne_true

/-- A run with no records at its start returns a summary of its own clients. -/
theorem returned_of_ok (hfresh : fleet.records = []) (hreturn : (atEnd y fleet).1 = .ok sum) :
    Returned y sum := by
  obtain ⟨_, hcut⟩ := uncut_of_returned hreturn
  have hchronicle : Chronicle y.host (atBuild y fleet).2.state.env (roster y) (atCut y fleet).2 :=
    (phases_chronicle y _ _ (chronicle_atBuild hfresh)).of_ok hcut
  have hsettled := (atCut_path y.host.respects_blank fleet).2.2 hcut
  obtain ⟨rfl, _⟩ := atEnd_of_returned hreturn
  refine ⟨rfl, hchronicle.roster, fun r hr n hn => ?_⟩
  -- a count was read when its record was settled
  obtain ⟨i, hi⟩ := List.mem_iff_getElem?.mp hr
  have hsent := (hchronicle.fits hsettled hi).sent
  rw [hn] at hsent
  obtain ⟨e, _, he⟩ := Option.bind_eq_some_iff.mp hsent.symm
  unfold Exit.finding at he
  split at he
  · cases he
  · exact isWritable_of_sent? he

end Fleet

end BrokerLoad
