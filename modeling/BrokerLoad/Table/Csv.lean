/-!
# Comma-separated rows

A row is a line of fields with commas between them. A field that holds a comma, a double quote or
a line end stands between double quotes, with every double quote in it doubled. Rows are written
with a carriage return and a line feed at the end; in reading, either of them or both end a row.

## Main definitions

* `Csv.renderRow`: the text of a row.
* `Csv.parse`: the rows of a text.
-/

namespace BrokerLoad.Csv

/-! ## §1 Writing -/

/-- Whether a character makes quotes necessary. -/
def needsQuotes (c : Char) : Bool := c == ',' || c == '"' || c == '\r' || c == '\n'

/-- The text with every double quote doubled. -/
def doubleQuotes (s : List Char) : List Char := s.flatMap fun c => if c = '"' then ['"', '"'] else [c]

/-- A field as it is written. -/
def renderField (s : List Char) : List Char :=
  if s.any needsQuotes then '"' :: (doubleQuotes s ++ ['"']) else s

/-- Fields with commas between them. -/
def joinFields : List (List Char) → List Char
  | [] => []
  | [s] => renderField s
  | s :: rest => renderField s ++ ',' :: joinFields rest

/-- A row as it is written, with its line end. A row of one empty field is written with quotes, as
an empty line would be no row. -/
def renderRow (fields : List (List Char)) : List Char :=
  (if fields = [[]] then ['"', '"'] else joinFields fields) ++ ['\r', '\n']

/-- A row of strings as it is written. -/
def renderStrings (fields : List String) : String :=
  String.ofList (renderRow (fields.map String.toList))

/-! ## §2 Reading -/

/-- Where in a row the reader stands. `afterReturn` is the start of a row, where the line feed of a
line end that began with a carriage return is still to be skipped. -/
inductive Place where
  | rowStart
  | afterReturn
  | fieldStart
  | bare
  | insideQuotes
  | afterQuote
  deriving DecidableEq, Repr

/-- Whether no row is open. -/
def Place.betweenRows : Place → Bool
  | rowStart | afterReturn => true
  | _ => false

/-- Whether a quote opens a quoted field here. -/
def Place.opensQuotes : Place → Bool
  | rowStart | afterReturn | fieldStart => true
  | _ => false

/-- Reads on from a place in a row. `fields` are the finished fields and `field` the characters of
the current one, both in reverse. A quote inside a bare field is an ordinary character, and so is
what follows a closing quote; at the end of the text an open row is finished as it stands. -/
def parseFrom (place : Place) (fields : List (List Char)) (field : List Char) :
    List Char → List (List (List Char))
  | [] => if place.betweenRows then [] else [(field.reverse :: fields).reverse]
  | c :: rest =>
    if place = .insideQuotes then
      if c = '"' then parseFrom .afterQuote fields field rest
      else parseFrom .insideQuotes fields (c :: field) rest
    else if c = '"' ∧ place.opensQuotes then parseFrom .insideQuotes fields [] rest
    else if c = '"' ∧ place = .afterQuote then parseFrom .insideQuotes fields ('"' :: field) rest
    else if c = ',' then parseFrom .fieldStart (field.reverse :: fields) [] rest
    else if c = '\n' ∧ place = .afterReturn then parseFrom .rowStart [] [] rest
    else if c = '\n' ∨ c = '\r' then
      (if place.betweenRows then [] else (field.reverse :: fields).reverse) ::
        parseFrom (if c = '\r' then .afterReturn else .rowStart) [] [] rest
    else parseFrom .bare fields (c :: field) rest

/-- The rows of a text; an empty line gives a row without fields. -/
def parse (text : List Char) : List (List (List Char)) := parseFrom .rowStart [] [] text

/-- The largest number of characters in a field that can be read. -/
def fieldLimit : Nat := 131072

/-- Whether a row can be read: none of its fields is too long. -/
def isReadable (fields : List (List Char)) : Bool := fields.all fun s => decide (s.length ≤ fieldLimit)

end BrokerLoad.Csv
