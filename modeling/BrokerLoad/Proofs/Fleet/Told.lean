import BrokerLoad.Proofs.Fleet.Legible
import BrokerLoad.Proofs.Fleet.Step
import BrokerLoad.Proofs.Number.Places
import BrokerLoad.Proofs.Number.Reprint

/-!
# Report lines are read as they were printed

A publisher prints its count and its time in two words of one line. The runner looks for the last
line that says something, whatever was printed before it and whatever says nothing after it. Here
the line that a publisher prints is followed to the record: the count comes back as it was, and the
time as the number that its three places denote.

## Main definitions

* `Fleet.Tells`, `Fleet.TellsNothing`: what becomes of a record for which an output is read.

## Main statements

* `Report.parse_line`: a report line reads back.
* `Report.line_stable`: what was read back is printed as the same line.
* `findReport_line`: a report line is found among other lines.
* `Fleet.tells_report`: a report that is found is taken over.
-/

namespace BrokerLoad

/-! ## §1 The two words of a report -/

theorem isBlank_of_mem_integerChars {n : Int} {c : Char} (hc : c ∈ integerChars n) :
    isBlank c = false := by
  rcases List.mem_append.mp hc with hsign | hdigit
  · exact isBlank_of_mem_signText hsign
  · exact isBlank_of_isDigit (isDigit_of_mem_decimalDigits hdigit)

/-- A word with a name and a value. -/
def fieldWord (name value : List Char) : List Char := name ++ '=' :: value

theorem fieldWord_ne_nil (name value : List Char) : fieldWord name value ≠ [] :=
  List.append_ne_nil_of_right_ne_nil _ (List.cons_ne_nil _ _)

theorem isBlank_of_mem_fieldWord {name value : List Char} (hname : ∀ c ∈ name, isBlank c = false)
    (hvalue : ∀ c ∈ value, isBlank c = false) : ∀ c ∈ fieldWord name value, isBlank c = false :=
  List.forall_mem_append.mpr ⟨hname, List.forall_mem_cons.mpr ⟨rfl, hvalue⟩⟩

namespace Report

variable (r : Report Double)

/-- The word with the count. -/
def sentWord : List Char := fieldWord "sent".toList (integerChars r.sent)

/-- The word with the time. -/
def elapsedWord : List Char := fieldWord "elapsed".toList (r.elapsed.fixedChars 3)

theorem line_chars : r.line.toList = r.sentWord ++ ' ' :: r.elapsedWord := by
  have hcount : (integerText r.sent).toList = integerChars r.sent := String.toList_ofList
  have hfixed : (Seconds.fixed 3 r.elapsed).toList = r.elapsed.fixedChars 3 := String.toList_ofList
  rw [line, String.toList_append, String.toList_append, String.toList_append, hcount, hfixed,
    List.append_assoc, List.append_assoc]
  rfl

theorem isBlank_of_mem_sentWord : ∀ c ∈ r.sentWord, isBlank c = false :=
  isBlank_of_mem_fieldWord (fun _ => isBlank_of_all rfl) fun _ => isBlank_of_mem_integerChars

theorem isBlank_of_mem_elapsedWord : ∀ c ∈ r.elapsedWord, isBlank c = false :=
  isBlank_of_mem_fieldWord (fun _ => isBlank_of_all rfl) fun _ => Double.isBlank_of_mem_fixedChars

/-- A report line ends nowhere but at its end. -/
theorem isLineEnd_of_mem_line : ∀ c ∈ r.line.toList, isLineEnd c = false := by
  have hplain : ∀ c, isBlank c = false → isLineEnd c = false := fun c hc => by
    cases hend : isLineEnd c with
    | false => rfl
    | true => exact absurd (isBlank_of_isLineEnd hend) (hc ▸ Bool.false_ne_true)
  rw [line_chars]
  refine List.forall_mem_append.mpr ⟨fun c hc => hplain c (r.isBlank_of_mem_sentWord c hc),
    List.forall_mem_cons.mpr ⟨rfl, fun c hc => hplain c (r.isBlank_of_mem_elapsedWord c hc)⟩⟩

theorem fields_line : fields r.line.toList =
    [("sent".toList, integerChars r.sent), ("elapsed".toList, r.elapsed.fixedChars 3)] := by
  have hsent : cutFirst? '=' r.sentWord = some ("sent".toList, integerChars r.sent) :=
    cutFirst?_append (by decide) _
  have helapsed : cutFirst? '=' r.elapsedWord = some ("elapsed".toList, r.elapsed.fixedChars 3) :=
    cutFirst?_append (by decide) _
  have hne : r.sentWord ≠ [] ∧ r.elapsedWord ≠ [] := ⟨fieldWord_ne_nil _ _, fieldWord_ne_nil _ _⟩
  rw [fields, line_chars, words_append hne.1 r.isBlank_of_mem_sentWord rfl,
    words_word hne.2 r.isBlank_of_mem_elapsedWord, List.filterMap_cons_some hsent,
    List.filterMap_cons_some helapsed, List.filterMap_nil]

/-! ## §2 Reading the line back -/

variable {r} {y : Double}

/-- A report line reads back: the count as it was, the time as its three places say. -/
theorem parse_line (hsent : isWritable r.sent = true)
    (helapsed : Seconds.read (Seconds.fixed 3 r.elapsed) = .ok y) :
    (parse r.line : Except Fault (Report Double)) = .ok { sent := r.sent, elapsed := y } := by
  have hcount : field (fields r.line.toList) "sent" = .ok (integerText r.sent) := by
    rw [fields_line]
    rfl
  have htime : field (fields r.line.toList) "elapsed" = .ok (Seconds.fixed 3 r.elapsed) := by
    rw [fields_line]
    rfl
  have hread : readCount (integerText r.sent) = .ok r.sent := by
    rw [readCount, readInteger_integerText hsent]
  simp only [parse, hcount, htime, hread, helapsed, bind, Except.bind, pure, Except.pure]

theorem readLine_line (hsent : isWritable r.sent = true)
    (helapsed : Seconds.read (Seconds.fixed 3 r.elapsed) = .ok y) :
    (readLine r.line.toList : Finding Double) = .report { sent := r.sent, elapsed := y } := by
  have hprefix : "sent=".toList.isPrefixOf r.line.toList = true := by
    rw [line_chars, List.isPrefixOf_iff_prefix]
    exact ⟨integerChars r.sent ++ ' ' :: r.elapsedWord, rfl⟩
  rw [readLine, if_pos hprefix, String.ofList_toList, parse_line hsent helapsed]

/-- A report line is stable, whatever the time is: if the count can be written, the line reads back
as a report with the same count, and that report has the same line. -/
theorem line_stable (r : Report Double) (hsent : r.sent.natAbs < 10 ^ 4300) :
    ∃ again : Report Double, parse r.line = .ok again ∧ again.sent = r.sent ∧
      again.line = r.line := by
  have hplaces : 2 < 400 := by decide
  obtain ⟨y, hread, hagain⟩ := Double.read_fixed_again hplaces r.elapsed
  rw [← tenPow_eq] at hsent
  refine ⟨{ sent := r.sent, elapsed := y }, ?_, rfl, ?_⟩
  · exact parse_line (isWritable_of_lt (Nat.le_refl _) hsent) hread
  · rw [line, line, hagain]

/-- A time half way between two thousandths is printed as the even one, and that is stable. -/
theorem half_way_line_stable :
    let r : Report Double := { sent := -12, elapsed := .ofDecimal true 625 (-4) }
    r.sent.natAbs < 10 ^ 4300 ∧ r.line = "sent=-12 elapsed=-0.062" ∧
      ∃ again : Report Double, parse "sent=-12 elapsed=-0.062" = .ok again ∧ again.sent = -12 ∧
        again.line = "sent=-12 elapsed=-0.062" := by
  intro r
  have hsent : r.sent.natAbs < 10 ^ 4300 := by
    calc r.sent.natAbs < 10 ^ 2 := by decide
      _ ≤ 10 ^ 4300 := pow_le_pow_right₀ (by decide) (by decide)
  have hline : r.line = "sent=-12 elapsed=-0.062" := by decide +kernel
  obtain ⟨again, hparse, hsame, hagain⟩ := line_stable r hsent
  rw [hline] at hparse hagain
  exact ⟨hsent, hline, again, hparse, hsame, hagain⟩

end Report

/-- A report line is found behind complete lines and in front of lines that say nothing. -/
theorem findReport_line {r : Report Double} {y : Double} (hsent : isWritable r.sent = true)
    (helapsed : Seconds.read (Seconds.fixed 3 r.elapsed) = .ok y) {before after : String}
    (hbefore : Complete before.toList) (hafter : ∀ l ∈ lines after.toList, Silent l) :
    (findReport (before ++ (r.line ++ "\n") ++ after) : Finding Double) =
      .report { sent := r.sent, elapsed := y } := by
  have hline := r.isLineEnd_of_mem_line
  have hhead : (r.line.toList ++ '\n' :: after.toList).head? ≠ some '\n' := by
    rw [Report.line_chars]
    nofun
  have htext : (before ++ (r.line ++ "\n") ++ after).toList =
      before.toList ++ (r.line.toList ++ '\n' :: after.toList) := by
    rw [String.toList_append, String.toList_append, String.toList_append, List.append_assoc,
      List.append_assoc]
    rfl
  have hlines : lines (before ++ (r.line ++ "\n") ++ after).toList =
      lines before.toList ++ r.line.toList :: lines after.toList := by
    rw [htext, lines_append hbefore hhead, lines_line hline]
  have htold : (.report { sent := r.sent, elapsed := y } : Finding Double) ≠ .nothing := nofun
  refine (firstFinding_eq_iff htold _).mpr
    ⟨(lines after.toList).reverse, r.line.toList, (lines before.toList).reverse, ?_, ?_,
      Report.readLine_line hsent helapsed⟩
  · rw [hlines, List.reverse_append, List.reverse_cons, List.append_assoc]
    rfl
  · exact fun l hl => readLine_eq_nothing_iff.mpr (hafter l (List.mem_reverse.mp hl))

/-! ## §3 What becomes of a record -/

namespace Fleet

variable {τ : Type} [Seconds τ] {output : String}

/-- A record for which the output is read gets this count and this time, in any world. -/
def Tells (output : String) (sent : Int) (elapsed : τ) : Prop :=
  ∀ {σ π : Type} (i : Nat) (record : Record τ π) (w : World τ σ π),
    Action.runFrom (readOutput i record (some output)) w =
      (.ok (), (w.noted (.read i (some output))).changed i fun r =>
        { r with sent := some sent, elapsed := some elapsed })

/-- A record for which the output is read stays as it is, in any world. -/
def TellsNothing (τ : Type) [Seconds τ] (output : String) : Prop :=
  ∀ {σ π : Type} (i : Nat) (record : Record τ π) (w : World τ σ π),
    Action.runFrom (readOutput i record (some output)) w =
      (.ok (), w.noted (.read i (some output)))

theorem tells_report {told : Report τ} (h : findReport output = .report told) :
    Tells output told.sent told.elapsed := by
  intro σ π i record w
  simp only [readOutput, Action.runFrom_bind, Traced.runFrom_note, Option.getD_some, h]
  rfl

theorem tellsNothing (h : (findReport output : Finding τ) = .nothing) : TellsNothing τ output := by
  intro σ π i record w
  simp only [readOutput, Action.runFrom_bind, Traced.runFrom_note, Option.getD_some, h]
  rfl

end Fleet

end BrokerLoad
