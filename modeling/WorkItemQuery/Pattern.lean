/-!
# Patterns

A pattern describes a set of texts.  `Pattern.step` takes a pattern to what is left to match after
one character, so that a text is tried from left to right without going back.
-/

namespace WorkItemQuery

/-- A regular set of texts. -/
inductive Pattern where
  /-- No text at all. -/
  | never
  /-- The empty text only. -/
  | done
  /-- One character that passes a test. -/
  | one (accepts : Char → Bool)
  /-- A text of either pattern. -/
  | either (left right : Pattern)
  /-- A text of the first pattern, then one of the second. -/
  | andThen (first second : Pattern)
  /-- Any number of texts of the pattern, one after another. -/
  | many (inner : Pattern)

namespace Pattern

/-- A text belongs to a pattern. -/
def Matches : Pattern → List Char → Prop
  | .never, _ => False
  | .done, text => text = []
  | .one accepts, text => ∃ char, text = [char] ∧ accepts char = true
  | .either left right, text => left.Matches text ∨ right.Matches text
  | .andThen first second, text =>
    ∃ front back, text = front ++ back ∧ first.Matches front ∧ second.Matches back
  | .many inner, text => ∃ parts : List (List Char), text = parts.flatten ∧
      ∀ part ∈ parts, inner.Matches part

/-- The empty text belongs to the pattern. -/
def nullable : Pattern → Bool
  | .never => false
  | .done => true
  | .one _ => false
  | .either left right => left.nullable || right.nullable
  | .andThen first second => first.nullable && second.nullable
  | .many _ => true

/-- Either pattern, kept small when one of them has no texts. -/
def alt : Pattern → Pattern → Pattern
  | .never, right => right
  | left, .never => left
  | left, right => .either left right

/-- One pattern after another, kept small when one has no texts or only the empty one. -/
def seq : Pattern → Pattern → Pattern
  | .never, _ => .never
  | .done, second => second
  | _, .never => .never
  | first, second => .andThen first second

/-- What is left to match after a character. -/
def step (char : Char) : Pattern → Pattern
  | .never => .never
  | .done => .never
  | .one accepts => if accepts char then .done else .never
  | .either left right => (left.step char).alt (right.step char)
  | .andThen first second =>
    if first.nullable then ((first.step char).seq second).alt (second.step char)
    else (first.step char).seq second
  | .many inner => (inner.step char).seq (.many inner)

/-- No text can complete the pattern any more. -/
def isNever : Pattern → Bool
  | .never => true
  | _ => false

/-- One or more texts of a pattern. -/
def oneOrMore (inner : Pattern) : Pattern := .andThen inner (.many inner)

/-- One given character. -/
def exactly (expected : Char) : Pattern := .one (· == expected)

/-- The given characters in order. -/
def literal : List Char → Pattern
  | [] => .done
  | [only] => exactly only
  | first :: rest => .andThen (exactly first) (literal rest)

end Pattern
end WorkItemQuery
