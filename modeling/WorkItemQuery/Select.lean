import WorkItemQuery.Text
import WorkItemQuery.Token

/-!
# Queries

What a query says, apart from how its tree is laid out: the fields it selects, the conditions on
them, the sort keys, the date it looks back to, and whether it is about work items, about links
between them, or about trees of links.  Words that may be left out or written in several ways are
kept as tokens.
-/

namespace WorkItemQuery

/-- A field name. -/
structure FieldName where
  /-- The name as written. -/
  identifier : Token
deriving DecidableEq, Repr

namespace FieldName

/-- The text between a pair of brackets, if the text has one. -/
def inBrackets? : List Char → Option (List Char)
  | '[' :: rest => if rest.getLast? = some ']' then some rest.dropLast else none
  | _ => none

/-- The name without brackets and without blanks at its ends. -/
def name (field : FieldName) : String :=
  let text := field.identifier.text.toList
  .ofList (Text.trim ((inBrackets? text).getD text))

end FieldName

/-- A whole number as written. -/
structure Number where
  /-- The minus before the digits. -/
  minus? : Option Token
  /-- The digits. -/
  digits : Token
deriving DecidableEq, Repr

namespace Number

/-- The value of the number, if it fits into 64 bits. -/
def value? (number : Number) : Option Int :=
  let digits := number.digits.text.toList
  Text.int64? (if number.minus?.isSome then '-' :: digits else digits)

/-- The number as text. -/
def text (number : Number) : String :=
  (if number.minus?.isSome then "-" else "") ++ number.digits.text

end Number

/-- What a value is built on. -/
inductive Term where
  | number (number : Number)
  | string (literal : Token)
  | dateTime (literal : Token)
  | variableRef (name : Token)
  | boolean (word : Token)
  | field (name : FieldName)
deriving DecidableEq, Repr

/-- The name of the sort of a term. -/
def Term.sortName : Term → String
  | .number _ => "Number"
  | .string _ => "String"
  | .dateTime _ => "DateTime"
  | .variableRef _ => "Variable"
  | .boolean _ => "Boolean"
  | .field _ => "Field"

/-- A term, with an offset or not. -/
structure Value where
  /-- What the value is built on. -/
  term : Term
  /-- The sign and the number of the offset. -/
  offset? : Option (Token × Number)
deriving DecidableEq, Repr

/-- A comparison operator. -/
structure Operator where
  /-- The kind of the operator proper. -/
  kind : Kind
  /-- The word `EVER`. -/
  ever? : Option Token
  /-- The word `NOT`. -/
  negation? : Option Token
deriving DecidableEq, Repr

/-- What a field is compared with. -/
inductive Operand where
  /-- An operator and a value. -/
  | compare (operator : Operator) (value : Value)
  /-- The word `IN` and a list of values. -/
  | member (word : Token) (values : List Value)
deriving DecidableEq, Repr

/-- A field and what is said of it. -/
structure Comparison where
  /-- The field. -/
  field : FieldName
  /-- The word `NOT` of `NOT IN`. -/
  negation? : Option Token
  /-- What the field is compared with. -/
  operand : Operand
deriving DecidableEq, Repr

/-- The two ends of a link. -/
inductive LinkEnd where
  | source
  | target
deriving DecidableEq, Repr

/-- The name of an end of a link. -/
def LinkEnd.name : LinkEnd → String
  | .source => "Source"
  | .target => "Target"

/-- An end of a link before a field. -/
structure Side where
  /-- Which end it is. -/
  linkEnd : LinkEnd
  /-- The end as written. -/
  word : Token
  /-- The bytes that it covers, with its dot. -/
  span? : Option Span
deriving DecidableEq, Repr

/-- Which parts the children of a condition have. -/
structure ConditionParts where
  expression : Bool
  field : Bool
  operator : Bool
  membership : Bool
  value : Bool
  negation : Bool
  valueList : Bool
deriving DecidableEq, Repr

mutual

/-- A single condition. -/
inductive Condition where
  /-- An expression between parentheses. -/
  | nested (parts : ConditionParts) (inner : Expression)
  /-- A comparison, of a field behind a side of the link or not. -/
  | leaf (parts : ConditionParts) (side? : Option Side) (comparison : Comparison)

/-- A chain of conditions. -/
inductive Expression where
  /-- The end of the chain. -/
  | done
  /-- A condition with the word before it and the word behind it, then the rest of the chain. -/
  | link (modifier? : Option Token) (condition : Condition) (connective? : Option Token)
      (rest : Expression)

end

/-- A sort key. -/
structure SortKey where
  /-- The side of the link that the field belongs to. -/
  side? : Option Side
  /-- The field. -/
  field : FieldName
  /-- The word for the direction. -/
  direction? : Option Token
deriving DecidableEq, Repr

/-- The key sorts downwards. -/
def SortKey.isDescending (key : SortKey) : Bool := key.direction?.any (·.kind == .descKw)

/-- How the links of a one-hop query have to be there. -/
inductive LinkMode where
  | mustContain
  | mayContain
  | doesNotContain
deriving DecidableEq, Repr

/-- The name of a mode. -/
def LinkMode.name : LinkMode → String
  | .mustContain => "MustContain"
  | .mayContain => "MayContain"
  | .doesNotContain => "DoesNotContain"

/-- The mode of a word; links must be there when nothing else is said. -/
def LinkMode.ofWord (word? : Option Token) : LinkMode :=
  match word?.map fun word : Token => word.kind with
  | some .mayContainKw => .mayContain
  | some .doesNotContainKw => .doesNotContain
  | _ => .mustContain

/-- What a query is about. -/
inductive Scope where
  /-- Work items. -/
  | flat
  /-- Links of one step, with the word for their mode. -/
  | oneHop (mode? : Option Token)
  /-- Trees of links, with the words of their mode. -/
  | recursive (recursive? matchingChildren? : Option Token)
deriving DecidableEq, Repr

namespace Scope

/-- The query is about links. -/
def isLink : Scope → Bool
  | .flat => false
  | _ => true

/-- The kind of the node of a query. -/
def kind : Scope → Kind
  | .flat => .flatSelect
  | .oneHop _ => .oneHopSelect
  | .recursive _ _ => .recursiveSelect

end Scope

/-- A query. -/
structure Select where
  /-- What the query is about. -/
  scope : Scope
  /-- The fields that it selects. -/
  fields : List FieldName
  /-- The conditions. -/
  filter? : Option Expression
  /-- The sort keys. -/
  order? : Option (List SortKey)
  /-- The date that it looks back to. -/
  asOf? : Option Token

end WorkItemQuery
