import BrokerLoad.Table.Csv

/-!
# Tables with a header

The first row of a table names its columns. Every later row that is not empty gives each column a
cell: a row that is too short leaves its last columns without one, and what a row has beyond the
columns is kept apart.

## Main definitions

* `SheetRow`: a row of a table by column names.
* `readSheet`: the rows of a table.
-/

namespace BrokerLoad

/-- A row of a table. The last cell of a name counts. -/
structure SheetRow where
  cells : List (String × Option String)
  beyond : Option (List String) := none
  deriving DecidableEq, Repr

/-- The cell of a column: nothing if there is no such column, and an absent cell if the row is too
short. -/
def SheetRow.cell? (r : SheetRow) (column : String) : Option (Option String) :=
  r.cells.reverse.lookup column

/-- The row of some fields under a header. -/
def SheetRow.ofFields (header fields : List String) : SheetRow :=
  let padded := fields.map some ++ List.replicate (header.length - fields.length) none
  { cells := header.zip padded
    beyond := if header.length < fields.length then some (fields.drop header.length) else none }

/-- The text with every line end written as a line feed. -/
def unifyLineEnds : List Char → List Char
  | '\r' :: '\n' :: rest => '\n' :: unifyLineEnds rest
  | '\r' :: rest => '\n' :: unifyLineEnds rest
  | c :: rest => c :: unifyLineEnds rest
  | [] => []

/-- The rows of a table, with line ends unified. There is nothing for a row that cannot be read, and
only that if the header cannot. -/
def readSheet (text : String) : List (Option SheetRow) :=
  let textsOf := fun (fields : List (List Char)) => fields.map String.ofList
  match Csv.parse (unifyLineEnds text.toList) with
  | [] => []
  | header :: rows =>
    if !Csv.isReadable header then [none]
    else (rows.filter fun r => !r.isEmpty).map fun r =>
      if Csv.isReadable r then some (.ofFields (textsOf header) (textsOf r)) else none

end BrokerLoad
