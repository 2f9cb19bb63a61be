import WorkItemQuery.Token
import WorkItemQuery.Token.Rules

/-!
# From text to tokens

Reading goes from left to right.  At each point the longest text that some rule accepts becomes a
piece; where no rule accepts anything, a piece without a kind takes the characters that were looked
at.  Pieces without a kind that touch are joined, blanks are dropped, and an end mark that remembers
the last token closes the list.  Reading never fails.
-/

namespace WorkItemQuery
namespace Lexer

/-- A stretch of the text, with its kind if some rule accepts it. -/
structure Piece where
  /-- The kind of the rule that accepts the text. -/
  kind? : Option Kind
  /-- The characters of the stretch. -/
  text : List Char
deriving DecidableEq, Repr

/-- The rules that are still alive after a character, with what each has left to match. -/
def advance (char : Char) (rules : List Rule) : List Rule :=
  rules.filterMap fun rule =>
    let rest := rule.pattern.step char
    if rest.isNever then none else some { rule with pattern := rest }

/-- The kind of the first rule that accepts what has been read. -/
def accepted (rules : List Rule) : Option Kind :=
  (rules.find? (·.pattern.nullable)).map (·.kind)

/-- Reads on while a rule is alive.  Answers the kind and length of the longest accepted text, or
no kind and the number of characters read. -/
def longestFrom (rules : List Rule) (read : Nat) (best : Option (Kind × Nat)) :
    List Char → Option Kind × Nat
  | [] => stopped
  | char :: text =>
    match advance char rules with
    | [] => stopped
    | live =>
      let best := match accepted live with
        | some kind => some (kind, read + 1)
        | none => best
      longestFrom live (read + 1) best text
where
  /-- The answer when no rule is alive any more or the text has ended. -/
  stopped : Option Kind × Nat :=
    match best with
    | some (kind, length) => (some kind, length)
    | none => (none, max read 1)

/-- The kind and length of the longest start of the text that a rule accepts. -/
def longest (text : List Char) : Option Kind × Nat := longestFrom Rule.all 0 none text

/-- The pieces of a text after the characters that a piece has taken already. -/
def piecesAfter : Nat → List Char → List Piece
  | _, [] => []
  | taken + 1, _ :: text => piecesAfter taken text
  | 0, char :: text =>
    let (kind?, length) := longest (char :: text)
    ⟨kind?, (char :: text).take length⟩ :: piecesAfter (length - 1) text

/-- The pieces of a text. -/
def pieces (text : List Char) : List Piece := piecesAfter 0 text

/-- Joins the pieces without a kind that touch. -/
def join : List Piece → List Piece
  | [] => []
  | piece :: rest =>
    match piece.kind?, join rest with
    | none, ⟨none, text⟩ :: more => ⟨none, piece.text ++ text⟩ :: more
    | _, joined => piece :: joined

/-- A place in a text. -/
structure Place where
  /-- The line, counted from one. -/
  line : Nat := 1
  /-- The column, counted from one in characters. -/
  column : Nat := 1
  /-- The byte offset. -/
  offset : Nat := 0
deriving DecidableEq, Repr

/-- The place behind a character. -/
def Place.after (place : Place) (char : Char) : Place :=
  if char = '\n' then ⟨place.line + 1, 1, place.offset + char.utf8Size⟩
  else ⟨place.line, place.column + 1, place.offset + char.utf8Size⟩

/-- The place behind a text. -/
def Place.afterAll (place : Place) (text : List Char) : Place := text.foldl Place.after place

/-- The token of a piece that starts at a place; blanks have none. -/
def Piece.token? (place : Place) (piece : Piece) : Option Token :=
  let kind := piece.kind?.getD .unrecognized
  if kind.isTrivia then none
  else some ⟨⟨kind, place.line, place.column, place.offset, .ofList piece.text⟩, []⟩

/-- The tokens of the pieces from a place on. -/
def place : Place → List Piece → List Token
  | _, [] => []
  | start, piece :: rest =>
    (piece.token? start).toList ++ place (start.afterAll piece.text) rest

end Lexer

/-- The tokens of a query text.  The last one is the end mark, which stands at the end of the text
and remembers the token before it. -/
def tokenize (source : String) : List Token :=
  let tokens := Lexer.place {} (Lexer.join (Lexer.pieces source.toList))
  let stop := Lexer.Place.afterAll {} source.toList
  tokens ++ [.endMark stop.line stop.column stop.offset tokens.getLast?]

end WorkItemQuery
