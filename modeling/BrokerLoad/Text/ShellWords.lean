import BrokerLoad.Fault

/-!
# Shell words

A command line is cut into words as a shell does it. Blanks separate words. Single quotes keep
everything between them; between double quotes a backslash keeps its meaning only in front of a
double quote or another backslash; elsewhere it makes the next character an ordinary one.

## Main definitions

* `shellWords`: the words of a command line, or why it has none.
-/

namespace BrokerLoad

/-- Where in a command line the reader stands: between words, in a word, between quotes, or after a
backslash, which may itself stand between double quotes. -/
inductive ShellPlace where
  | between
  | word
  | quoted (mark : Char)
  | escaped (inQuotes : Bool)
  deriving DecidableEq, Repr

/-- The blanks between shell words. -/
def isShellBlank (c : Char) : Bool := c == ' ' || c == '\t' || c == '\r' || c == '\n'

/-- Reads on from a place; `word` is the current word in reverse. -/
def shellWordsFrom (place : ShellPlace) (word : List Char) :
    List Char → Except ValueError (List (List Char))
  | [] =>
    match place with
    | .between => .ok []
    | .word => .ok [word.reverse]
    | .quoted _ => .error .openQuote
    | .escaped _ => .error .danglingEscape
  | c :: rest =>
    match place with
    | .quoted mark =>
      if c = mark then shellWordsFrom .word word rest
      else if c = '\\' ∧ mark = '"' then shellWordsFrom (.escaped true) word rest
      else shellWordsFrom (.quoted mark) (c :: word) rest
    | .escaped true =>
      if c = '"' ∨ c = '\\' then shellWordsFrom (.quoted '"') (c :: word) rest
      else shellWordsFrom (.quoted '"') (c :: '\\' :: word) rest
    | .escaped false => shellWordsFrom .word (c :: word) rest
    | _ =>
      if isShellBlank c then
        if place = .between then shellWordsFrom .between [] rest
        else do return word.reverse :: (← shellWordsFrom .between [] rest)
      else if c = '"' ∨ c = '\'' then shellWordsFrom (.quoted c) word rest
      else if c = '\\' then shellWordsFrom (.escaped false) word rest
      else shellWordsFrom .word (c :: word) rest

/-- The words of a command line. -/
def shellWords (line : String) : Except ValueError (List String) := do
  return (← shellWordsFrom .between [] line.toList).map String.ofList

end BrokerLoad
