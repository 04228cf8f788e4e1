import BrokerLoad.Client.Handler
import BrokerLoad.Proofs.Number.Places
import BrokerLoad.Proofs.Table.Csv
import Mathlib.Data.List.Forall2

/-!
# The message log

A message log is a table with a header and one row for each message. Whatever is in the topics, the
table reads back as what was received, since a row is read back whatever is in its fields. The tally
is kept beside the table, and every message that it counts has its row.

Rows are read by the grammar alone, without the limit on the length of a field.

## Main definitions

* `MessageLog.writeAll`: messages that are logged one after another.
* `MessageLog.Kept`: what a log holds after some messages.
* `MessageLog.Tells`: a row that was read, as one on a message.

## Main statements

* `MessageLog.Kept.write`: what one message adds.
* `MessageLog.closed_log_reads_back`: what the text of a closed log says.
-/

namespace BrokerLoad.MessageLog

/-! ## §1 Logging -/

section Writing

variable {τ : Type} [Seconds τ] {log : MessageLog} {entries : List (τ × Message)}

/-- Messages with their times, logged one after another until the log refuses one. -/
def writeAll (log : MessageLog) : List (τ × Message) → Except Fault Unit × MessageLog
  | [] => (.ok (), log)
  | (time, m) :: rest =>
    match log.write time m with
    | (.ok (), next) => next.writeAll rest
    | refused => refused

/-- The names of the columns. -/
def header : List (List Char) := ["recv".toList, "topic".toList, "size".toList]

/-- The characters of a row. -/
def cells (entry : τ × Message) : List (List Char) :=
  [(Seconds.fixed 6 entry.1).toList, entry.2.topic.toList, decimalDigits entry.2.payload.length]

theorem map_row (time : τ) (m : Message) : (row time m).map String.toList = cells (time, m) := by
  simp [row, cells, decimalDigits]

/-- An open log that took some messages: their rows are in the table, and it counted them. -/
structure Kept (log : MessageLog) (entries : List (τ × Message)) : Prop where
  isOpen : log.isOpen = true
  text : log.text.toList = (header :: entries.map cells).flatMap Csv.renderRow
  messages : log.tally.messages = entries.length
  bytes : log.tally.bytes = (entries.map fun entry => entry.2.payload.length).sum

/-- A fresh log has its header only. -/
theorem kept_nil : Kept ({} : MessageLog) ([] : List (τ × Message)) where
  isOpen := rfl
  text := by simp [Csv.renderStrings, header]
  messages := rfl
  bytes := rfl

/-- An open log takes a message, with its row and its bytes. -/
theorem Kept.write (h : Kept log entries) (time : τ) (m : Message) :
    (log.write time m).1 = .ok () ∧ Kept (log.write time m).2 (entries ++ [(time, m)]) := by
  have hwrite : log.write time m = (.ok (), { log with
      tally := log.tally.add m, text := log.text ++ Csv.renderStrings (row time m) }) := by
    simp [MessageLog.write, record, h.isOpen]
  rw [hwrite]
  refine ⟨rfl, h.isOpen, ?_, ?_, ?_⟩
  · have hrow : (Csv.renderStrings (row time m)).toList = Csv.renderRow (cells (time, m)) := by
      rw [Csv.renderStrings, String.toList_ofList, map_row]
    rw [String.toList_append, h.text, hrow, List.map_append, ← List.cons_append,
      List.flatMap_append]
    simp
  · rw [Tally.add, h.messages, List.length_append]
    rfl
  · rw [Tally.add, h.bytes, List.map_append, List.sum_append]
    simp

/-- It takes any number of messages. -/
theorem Kept.writeAll (h : Kept log entries) (more : List (τ × Message)) :
    ∃ last, log.writeAll more = (.ok (), last) ∧ Kept last (entries ++ more) := by
  induction more generalizing log entries with
  | nil => exact ⟨log, rfl, by rwa [List.append_nil]⟩
  | cons entry rest ih =>
    obtain ⟨time, m⟩ := entry
    obtain ⟨hanswer, hkept⟩ := h.write time m
    obtain ⟨last, hrest, hlast⟩ := ih hkept
    refine ⟨last, ?_, ?_⟩
    · have hwrite : log.write time m = (.ok (), (log.write time m).2) := Prod.ext hanswer rfl
      rw [MessageLog.writeAll, hwrite]
      exact hrest
    · rwa [List.append_assoc] at hlast

end Writing

/-! ## §2 Reading -/

/-- A row as one on a message: the time to the sixth place, the topic as it is, and the size. -/
structure Tells (fields : List (List Char)) (entry : Double × Message) : Prop where
  cells : fields = [entry.1.fixedChars 6, entry.2.topic.toList,
    decimalDigits entry.2.payload.length]
  time : ∀ negative m, entry.1 = .finite negative m → readReal (entry.1.fixedChars 6) =
    some (.decimal negative (roundHalfEven (m.units * tenPow 6) unitsPerOne) (-6))
  size : digitsValue (decimalDigits entry.2.payload.length) = entry.2.payload.length

theorem tells_cells (entry : Double × Message) : Tells (MessageLog.cells entry) entry where
  cells := by simp [MessageLog.cells, Seconds.fixed, Double.fixed]
  time negative m h := by
    rw [h]
    exact Double.readReal_fixedChars 5 negative m
  size := digitsValue_decimalDigits _

/-- The size that is in a row. -/
def sizeIn (fields : List (List Char)) : Nat := digitsValue (fields.getD 2 [])

theorem sizeIn_cells {τ : Type} [Seconds τ] (entry : τ × Message) :
    sizeIn (cells entry) = entry.2.payload.length :=
  digitsValue_decimalDigits _

/-- A log takes every message until it is closed. Then its text reads back as the header and one row
for each of them, in their order, and it has counted these rows and added up their sizes. -/
theorem closed_log_reads_back (entries : List (Double × Message)) :
    ∃ log rows, ({} : MessageLog).writeAll entries = (.ok (), log) ∧
      Csv.parse log.close.text.toList = header :: rows ∧
      List.Forall₂ Tells rows entries ∧
      log.close.tally.messages = rows.length ∧
      log.close.tally.bytes = (rows.map sizeIn).sum := by
  obtain ⟨log, hwritten, hkept⟩ := kept_nil.writeAll entries
  rw [List.nil_append] at hkept
  refine ⟨log, entries.map cells, hwritten, ?_, ?_, ?_, ?_⟩
  · exact (congrArg Csv.parse hkept.text).trans (Csv.parse_renderRows _)
  · exact List.forall₂_map_left_iff.mpr (List.forall₂_same.mpr fun entry _ => tells_cells entry)
  · exact hkept.messages.trans (List.length_map _).symm
  · rw [List.map_map]
    exact hkept.bytes.trans (congrArg List.sum (List.map_congr_left fun entry _ =>
      (sizeIn_cells entry).symm))

end BrokerLoad.MessageLog
