import WorkItemQuery.Kind
import WorkItemQuery.Pattern

/-!
# Lexical rules

The rules of the tokens and of the blanks between them.  Words are read without regard to case.
Where two rules accept the same text the earlier one wins, so words and the bracketed link sides
come before field names.
-/

namespace WorkItemQuery

/-- A kind of token with the texts that it is written as. -/
structure Rule where
  /-- The kind of the token. -/
  kind : Kind
  /-- What the token may be written as. -/
  pattern : Pattern

namespace Rule

/-- The lower-case form of a character in a word.  Besides the capital letters, the long s stands
for `s` and the Kelvin sign for `k`. -/
def foldCase (char : Char) : Char :=
  if char = '\u017f' then 's' else if char = '\u212a' then 'k' else char.toLower

/-- A letter of a word, in either case. -/
def letter (expected : Char) : Pattern := .one fun char => foldCase char == expected

/-- The letters of a word in order, in either case. -/
def letters : List Char → Pattern
  | [] => .done
  | [only] => letter only
  | first :: rest => .andThen (letter first) (letters rest)

/-- A word in either case. -/
def word (text : String) : Pattern := letters text.toList

/-- A blank that may stand inside a word of several parts. -/
def isGap (char : Char) : Bool := char == ' ' || char == '\t' || char == '\r' || char == '\n'

/-- A blank between tokens that does not end the line. -/
def isBlank (char : Char) : Bool := char == ' ' || char == '\t' || char == '\r' || char == '\x0c'

/-- Any blanks inside a word of several parts. -/
def gaps : Pattern := .many (.one isGap)

/-- The first character of a bare name. -/
def isNameStart (char : Char) : Bool := char.isAlpha || char == '_'

/-- A further character of a bare name. -/
def isNameRest (char : Char) : Bool := char.isAlphanum || char == '_'

/-- One part of a bare name. -/
def namePart : Pattern := .andThen (.one isNameStart) (.many (.one isNameRest))

/-- A bare field name: parts with dots between them. -/
def bareName : Pattern := .andThen namePart (.many (.andThen (.exactly '.') namePart))

/-- A bracketed field name, on one line. -/
def bracketedName : Pattern :=
  .andThen (.exactly '[')
    (.andThen (.many (.one fun char => char != ']' && char != '\n')) (.exactly ']'))

/-- The inside of a string literal: on one line, with every quote doubled. -/
def literalBody (quote : Char) : Pattern :=
  .many (.either (.one fun char => char != quote && char != '\n')
    (.andThen (.exactly quote) (.exactly quote)))

/-- A string literal without its closing quote. -/
def openLiteral (quote : Char) : Pattern := .andThen (.exactly quote) (literalBody quote)

/-- A closed string literal. -/
def closedLiteral (quote : Char) : Pattern :=
  .andThen (.exactly quote) (.andThen (literalBody quote) (.exactly quote))

/-- The words of the language. -/
def keywordRules : List Rule :=
  [⟨.selectKw, word "select"⟩,
   ⟨.fromKw, word "from"⟩,
   ⟨.whereKw, word "where"⟩,
   ⟨.orderByKw, .andThen (word "order") (.andThen (.oneOrMore (.one isGap)) (word "by"))⟩,
   ⟨.ascKw, word "asc"⟩,
   ⟨.descKw, word "desc"⟩,
   ⟨.asofKw, .andThen (word "as") (.andThen gaps (word "of"))⟩,
   ⟨.notKw, word "not"⟩,
   ⟨.everKw, word "ever"⟩,
   ⟨.inKw, word "in"⟩,
   ⟨.likeKw, word "like"⟩,
   ⟨.underKw, word "under"⟩,
   ⟨.workItemsKw, .andThen (word "work") (.andThen gaps (word "items"))⟩,
   ⟨.workItemLinksKw,
    .andThen (word "work")
      (.andThen gaps (.andThen (word "item") (.andThen gaps (word "links"))))⟩,
   ⟨.andKw, word "and"⟩,
   ⟨.orKw, word "or"⟩,
   ⟨.containsKw, word "contains"⟩,
   ⟨.wordsKw, word "words"⟩,
   ⟨.groupKw, word "group"⟩,
   ⟨.trueKw, word "true"⟩,
   ⟨.falseKw, word "false"⟩,
   ⟨.modeKw, word "mode"⟩,
   ⟨.mustContainKw, word "mustcontain"⟩,
   ⟨.mayContainKw, word "maycontain"⟩,
   ⟨.doesNotContainKw, word "doesnotcontain"⟩,
   ⟨.sourceKw, .either (word "[source]") (word "source")⟩,
   ⟨.targetKw, .either (word "[target]") (word "target")⟩,
   ⟨.recursiveKw, word "recursive"⟩,
   ⟨.matchingChildrenKw, word "returnmatchingchildren"⟩]

/-- The marks of the language. -/
def markRules : List Rule :=
  [⟨.rightParen, .exactly ')'⟩,
   ⟨.leftParen, .exactly '('⟩,
   ⟨.rightBracket, .exactly ']'⟩,
   ⟨.leftBracket, .exactly '['⟩,
   ⟨.comma, .exactly ','⟩,
   ⟨.equals, .exactly '='⟩,
   ⟨.notEquals, .either (.literal ['<', '>']) (.literal ['!', '='])⟩,
   ⟨.greater, .exactly '>'⟩,
   ⟨.less, .exactly '<'⟩,
   ⟨.greaterEq, .literal ['>', '=']⟩,
   ⟨.lessEq, .literal ['<', '=']⟩,
   ⟨.minus, .exactly '-'⟩,
   ⟨.plus, .exactly '+'⟩,
   ⟨.dot, .exactly '.'⟩]

/-- The tokens whose text varies, and the blanks between tokens. -/
def openRules : List Rule :=
  [⟨.string, .either (closedLiteral '\'') (closedLiteral '"')⟩,
   ⟨.openString, .either (openLiteral '\'') (openLiteral '"')⟩,
   ⟨.identifier, .either bracketedName bareName⟩,
   ⟨.digits, .oneOrMore (.one Char.isDigit)⟩,
   ⟨.variableRef, .andThen (.exactly '@') namePart⟩,
   ⟨.whitespace, .oneOrMore (.one isBlank)⟩,
   ⟨.newline, .either (.exactly '\n') (.literal ['\r', '\n'])⟩]

/-- All rules, the ones that win first. -/
def all : List Rule := keywordRules ++ markRules ++ openRules

end Rule
end WorkItemQuery
