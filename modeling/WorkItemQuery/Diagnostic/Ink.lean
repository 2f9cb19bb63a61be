/-!
# Inked text

A row of a drawing is a list of characters, each with its ink.  On a terminal with colours every
run of one ink is written between the codes that switch the ink on and off.
-/

namespace WorkItemQuery

/-- The inks of a drawing. -/
inductive Ink where
  | plain
  | strong
  | error
  | warning
  | accent
deriving DecidableEq, Repr

namespace Ink

/-- The code that switches an ink on. -/
def code : Ink → String
  | .plain => ""
  | .strong => "\x1b[1m"
  | .error => "\x1b[1m\x1b[91m"
  | .warning => "\x1b[1m\x1b[33m"
  | .accent => "\x1b[1m\x1b[94m"

/-- A run of characters in one ink. -/
def write (ink : Ink) (text : String) : String :=
  if ink = .plain then text else ink.code ++ text ++ "\x1b[0m"

end Ink

/-- A row of a drawing. -/
abbrev Row := List (Char × Ink)

namespace Row

/-- A text in one ink. -/
def ofChars (ink : Ink) (text : List Char) : Row := text.map fun char => (char, ink)

/-- A text in one ink. -/
def of (ink : Ink) (text : String) : Row := ofChars ink text.toList

/-- Blanks without ink. -/
def blanks (count : Nat) : Row := List.replicate count (' ', .plain)

/-- Draws over a row from a column on.  Blanks fill the gap up to the column, if there is one. -/
def draw (row : Row) (column : Nat) (ink : Row) : Row :=
  if ink.isEmpty then row
  else
    let wide := row ++ blanks (column - row.length)
    wide.take column ++ ink ++ wide.drop (column + ink.length)

/-- The characters of a row. -/
def chars (row : Row) : String := .ofList (row.map (·.1))

/-- A run of characters that all have the ink of the first. -/
def writeRun : Row → String
  | [] => ""
  | first :: rest => first.2.write (chars (first :: rest))

/-- A row as text, in colour or not. -/
def render (colored : Bool) (row : Row) : String :=
  if colored then
    String.join ((row.splitBy fun left right => left.2 == right.2).map writeRun)
  else chars row

end Row
end WorkItemQuery
