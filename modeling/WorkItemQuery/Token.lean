import WorkItemQuery.KindSet
import WorkItemQuery.Span

/-!
# Tokens

A lexeme is a piece of text with its kind and its place.  A token is a lexeme that may remember
the lexemes before it; only the end mark of a token list does, and it remembers one.
-/

namespace WorkItemQuery

/-- A piece of text with its kind and its place. -/
structure Lexeme where
  /-- The kind of the piece. -/
  kind : Kind
  /-- The line of its first character, counted from one. -/
  line : Nat
  /-- The column of its first character, counted from one in characters. -/
  column : Nat
  /-- The byte offset of its first character. -/
  offset : Nat
  /-- The text itself. -/
  text : String
deriving DecidableEq, Repr

/-- A lexeme in a token list. -/
structure Token extends Lexeme where
  /-- The lexemes it remembers, the nearest first. -/
  before : List Lexeme := []
deriving DecidableEq, Repr

namespace Lexeme

/-- The column behind the last character, as if the text were on one line. -/
def endColumn (lexeme : Lexeme) : Nat := lexeme.column + lexeme.text.length

/-- The bytes that the lexeme covers. -/
def span (lexeme : Lexeme) : Span := .sized lexeme.offset lexeme.text.utf8ByteSize

end Lexeme

namespace Token

/-- The token just before this one, if it is remembered. -/
def prev? (token : Token) : Option Token :=
  match token.before with
  | [] => none
  | lexeme :: before => some { toLexeme := lexeme, before }

/-- The spans of the token and of what it remembers fit into 32 bits. -/
def fits (token : Token) : Bool := token.span.fits && token.before.all (·.span.fits)

/-- The end mark at a place, which remembers the token before it. -/
def endMark (line column offset : Nat) (prev : Option Token) : Token where
  kind := .endMark
  line := line
  column := column
  offset := offset
  text := ""
  before :=
    match prev with
    | none => []
    | some token => token.toLexeme :: token.before

@[simp]
theorem prev?_endMark (line column offset : Nat) (prev : Option Token) :
    (endMark line column offset prev).prev? = prev := by
  cases prev <;> rfl

/-- Replaces every doubled quote by a single one, from left to right. -/
def collapse (quote : Char) : List Char → List Char
  | first :: second :: rest =>
    if first = quote ∧ second = quote then quote :: collapse quote rest
    else first :: collapse quote (second :: rest)
  | rest => rest

/-- The body of a literal, less its closing quote if it has one. -/
def withoutClosing (quote : Char) (body : List Char) : List Char :=
  if body.getLast? = some quote then body.dropLast else body

/-- The content of a string literal, without its quotes and with doubled quotes made single. -/
def stringValue? (token : Token) : Option String :=
  match token.kind, token.text.toList with
  | .string, quote :: body => some (.ofList (collapse quote (withoutClosing quote body)))
  | .openString, quote :: body => some (.ofList (collapse quote body))
  | _, _ => none

/-- The canonical spelling of a token of fixed text, the text as written otherwise. -/
def canonicalText (token : Token) : String := token.kind.canonicalText?.getD token.text

/-- The token as a report shows it. -/
def shown (token : Token) : String :=
  if token.kind = .endMark ∨ token.kind.isKeyword then token.kind.describe
  else "`" ++ token.text ++ "`"

end Token
end WorkItemQuery
