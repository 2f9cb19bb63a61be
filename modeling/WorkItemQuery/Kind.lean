/-!
# Kinds of symbols

Every token and every node of a query carries one kind.  The kinds come in a fixed order: the
kinds of tokens, the end mark, the blanks between tokens, and the kinds of nodes.
-/

namespace WorkItemQuery

/-- What a token or a node of a query is. -/
inductive Kind where
  | selectKw
  | fromKw
  | whereKw
  /-- `ORDER BY`, with blanks between the words. -/
  | orderByKw
  | ascKw
  | descKw
  /-- `ASOF`, also written `AS OF`. -/
  | asofKw
  | notKw
  | everKw
  | inKw
  | likeKw
  | underKw
  /-- `WorkItems`, with or without blanks between the words. -/
  | workItemsKw
  /-- `WorkItemLinks`, with or without blanks between the words. -/
  | workItemLinksKw
  | andKw
  | orKw
  | containsKw
  | wordsKw
  | groupKw
  | trueKw
  | falseKw
  | rightParen
  | leftParen
  /-- A `]` that closes nothing. -/
  | rightBracket
  /-- A `[` that nothing closes. -/
  | leftBracket
  | comma
  | equals
  | notEquals
  | greater
  | less
  | greaterEq
  | lessEq
  | minus
  | plus
  /-- A run of characters that no rule accepts. -/
  | unrecognized
  /-- A closed string literal. -/
  | string
  /-- A string literal without its closing quote. -/
  | openString
  /-- A field name, bracketed or bare. -/
  | identifier
  | digits
  /-- A variable such as `@Me`. -/
  | variableRef
  | modeKw
  | mustContainKw
  | mayContainKw
  | doesNotContainKw
  /-- The source side, bracketed or bare. -/
  | sourceKw
  /-- The target side, bracketed or bare. -/
  | targetKw
  | dot
  | recursiveKw
  | matchingChildrenKw
  /-- The end of the query. -/
  | endMark
  | whitespace
  | newline
  | number
  | field
  | containsWords
  | inGroup
  | dateTime
  | orderList
  | fieldList
  /-- A comparison operator. -/
  | operator
  | value
  | valueList
  | logicalExpression
  /-- A condition of a flat query. -/
  | condition
  | flatSelect
  /-- A source side with its dot. -/
  | sourceSide
  /-- A target side with its dot. -/
  | targetSide
  | linkCondition
  | linkExpression
  | linkOrderList
  | oneHopSelect
  | recursiveSelect
deriving DecidableEq, Repr

namespace Kind

/-- Every kind, in order. -/
def all : List Kind :=
  [.selectKw, .fromKw, .whereKw, .orderByKw, .ascKw, .descKw, .asofKw, .notKw, .everKw, .inKw,
   .likeKw, .underKw, .workItemsKw, .workItemLinksKw, .andKw, .orKw, .containsKw, .wordsKw,
   .groupKw, .trueKw, .falseKw, .rightParen, .leftParen, .rightBracket, .leftBracket, .comma,
   .equals, .notEquals, .greater, .less, .greaterEq, .lessEq, .minus, .plus, .unrecognized,
   .string, .openString, .identifier, .digits, .variableRef, .modeKw, .mustContainKw,
   .mayContainKw, .doesNotContainKw, .sourceKw, .targetKw, .dot, .recursiveKw,
   .matchingChildrenKw, .endMark, .whitespace, .newline, .number, .field, .containsWords,
   .inGroup, .dateTime, .orderList, .fieldList, .operator, .value, .valueList,
   .logicalExpression, .condition, .flatSelect, .sourceSide, .targetSide, .linkCondition,
   .linkExpression, .linkOrderList, .oneHopSelect, .recursiveSelect]

/-- The place of a kind in the fixed order. -/
def code (kind : Kind) : Nat := kind.ctorIdx

/-- The kind at a place in the fixed order. -/
def ofCode? (code : Nat) : Option Kind := all[code]?

@[simp]
theorem ofCode?_code (kind : Kind) : ofCode? kind.code = some kind := by
  cases kind <;> rfl

@[simp]
theorem mem_all (kind : Kind) : kind ∈ all := by
  cases kind <;> decide

/-- What is decidable of one kind is decidable of all. -/
instance {holds : Kind → Prop} [DecidablePred holds] : Decidable (∀ kind, holds kind) :=
  decidable_of_iff (∀ kind ∈ all, holds kind)
    ⟨fun every kind => every kind (mem_all kind), fun every kind _ => every kind⟩

/-- The stable name of a kind. -/
def name : Kind → String
  | .selectKw => "Select"
  | .fromKw => "From"
  | .whereKw => "Where"
  | .orderByKw => "OrderBy"
  | .ascKw => "Asc"
  | .descKw => "Desc"
  | .asofKw => "Asof"
  | .notKw => "Not"
  | .everKw => "Ever"
  | .inKw => "In"
  | .likeKw => "Like"
  | .underKw => "Under"
  | .workItemsKw => "WorkItems"
  | .workItemLinksKw => "WorkItemLinks"
  | .andKw => "And"
  | .orKw => "Or"
  | .containsKw => "Contains"
  | .wordsKw => "Words"
  | .groupKw => "Group"
  | .trueKw => "True"
  | .falseKw => "False"
  | .rightParen => "RParen"
  | .leftParen => "LParen"
  | .rightBracket => "RSqBracket"
  | .leftBracket => "LSqBracket"
  | .comma => "Comma"
  | .equals => "Equals"
  | .notEquals => "NotEquals"
  | .greater => "GreaterThan"
  | .less => "LessThan"
  | .greaterEq => "GreaterOrEq"
  | .lessEq => "LessOrEq"
  | .minus => "Minus"
  | .plus => "Plus"
  | .unrecognized => "UnexpectedToken"
  | .string => "String"
  | .openString => "NonterminatingString"
  | .identifier => "Identifier"
  | .digits => "Digits"
  | .variableRef => "Variable"
  | .modeKw => "Mode"
  | .mustContainKw => "MustContain"
  | .mayContainKw => "MayContain"
  | .doesNotContainKw => "DoesNotContain"
  | .sourceKw => "Source"
  | .targetKw => "Target"
  | .dot => "Dot"
  | .recursiveKw => "Recursive"
  | .matchingChildrenKw => "ReturnMatchingChildren"
  | .endMark => "EOF"
  | .whitespace => "Whitespace"
  | .newline => "Newline"
  | .number => "Number"
  | .field => "Field"
  | .containsWords => "ContainsWords"
  | .inGroup => "InGroup"
  | .dateTime => "DateTime"
  | .orderList => "OrderByFieldList"
  | .fieldList => "FieldList"
  | .operator => "ConditionalOperator"
  | .value => "Value"
  | .valueList => "ValueList"
  | .logicalExpression => "LogicalExpression"
  | .condition => "ConditionalExpression"
  | .flatSelect => "FlatSelect"
  | .sourceSide => "SourcePrefix"
  | .targetSide => "TargetPrefix"
  | .linkCondition => "LinkCondition"
  | .linkExpression => "LinkExpression"
  | .linkOrderList => "LinkOrderByFieldList"
  | .oneHopSelect => "OneHopSelect"
  | .recursiveSelect => "RecursiveSelect"

/-- The kind of a name. -/
def ofName? (name : String) : Option Kind := all.find? (·.name == name)

/-- The label of a kind in a shown set: the name, but short for strings and the end mark. -/
def label : Kind → String
  | .string => "Str"
  | .endMark => "Eof"
  | kind => kind.name

/-- The canonical spelling of the kinds whose text is fixed. -/
def canonicalText? : Kind → Option String
  | .selectKw => some "SELECT"
  | .fromKw => some "FROM"
  | .whereKw => some "WHERE"
  | .orderByKw => some "ORDER BY"
  | .ascKw => some "ASC"
  | .descKw => some "DESC"
  | .asofKw => some "ASOF"
  | .notKw => some "NOT"
  | .everKw => some "EVER"
  | .inKw => some "IN"
  | .likeKw => some "LIKE"
  | .underKw => some "UNDER"
  | .workItemsKw => some "WorkItems"
  | .workItemLinksKw => some "WorkItemLinks"
  | .andKw => some "AND"
  | .orKw => some "OR"
  | .containsKw => some "CONTAINS"
  | .wordsKw => some "WORDS"
  | .groupKw => some "GROUP"
  | .trueKw => some "True"
  | .falseKw => some "False"
  | .rightParen => some ")"
  | .leftParen => some "("
  | .rightBracket => some "]"
  | .leftBracket => some "["
  | .comma => some ","
  | .equals => some "="
  | .notEquals => some "<>"
  | .greater => some ">"
  | .less => some "<"
  | .greaterEq => some ">="
  | .lessEq => some "<="
  | .minus => some "-"
  | .plus => some "+"
  | .modeKw => some "MODE"
  | .mustContainKw => some "MustContain"
  | .mayContainKw => some "MayContain"
  | .doesNotContainKw => some "DoesNotContain"
  | .sourceKw => some "[Source]"
  | .targetKw => some "[Target]"
  | .dot => some "."
  | .recursiveKw => some "Recursive"
  | .matchingChildrenKw => some "ReturnMatchingChildren"
  | _ => none

/-- A token that is read from the text of a query. -/
def isToken (kind : Kind) : Bool := kind.code < endMark.code

/-- A token that is read from the text, or the end mark. -/
def isTerminal (kind : Kind) : Bool := kind.code ≤ endMark.code

/-- A blank between tokens. -/
def isTrivia : Kind → Bool
  | .whitespace | .newline => true
  | _ => false

/-- A node with children. -/
def isNode (kind : Kind) : Bool := number.code ≤ kind.code

/-- A token that marks a mistake in the text itself. -/
def isLexicalError : Kind → Bool
  | .unrecognized | .openString => true
  | _ => false

/-- A word of the language, the two link sides included. -/
def isKeyword : Kind → Bool
  | .selectKw | .fromKw | .whereKw | .orderByKw | .ascKw | .descKw | .asofKw | .notKw | .everKw
  | .inKw | .likeKw | .underKw | .workItemsKw | .workItemLinksKw | .andKw | .orKw | .containsKw
  | .wordsKw | .groupKw | .trueKw | .falseKw | .modeKw | .mustContainKw | .mayContainKw
  | .doesNotContainKw | .sourceKw | .targetKw | .recursiveKw | .matchingChildrenKw => true
  | _ => false

/-- The words for a kind in a report. -/
def describe (kind : Kind) : String :=
  match kind.canonicalText? with
  | some text => "`" ++ text ++ "`"
  | none =>
    match kind with
    | .unrecognized => "unrecognized input"
    | .string => "string"
    | .openString => "unterminated string"
    | .identifier => "field name"
    | .digits => "number"
    | .variableRef => "variable"
    | .endMark => "end of query"
    | .whitespace => "whitespace"
    | .newline => "whitespace"
    | .number => "number"
    | .field => "field"
    | .value => "value"
    | .dateTime => "date"
    | _ => kind.name

end Kind

/-! ## Dialects -/

/-- A form of conditions and sort keys: one for flat queries, one for queries about links. -/
structure Dialect where
  /-- The kind of a chain of conditions. -/
  expression : Kind
  /-- The kind of a single condition. -/
  condition : Kind
  /-- The kind of a list of sort keys. -/
  order : Kind
  /-- Fields may stand behind a side of the link. -/
  hasSides : Bool
deriving DecidableEq, Repr

namespace Dialect

/-- The form of flat queries. -/
def flat : Dialect := ⟨.logicalExpression, .condition, .orderList, false⟩

/-- The form of queries about links. -/
def link : Dialect := ⟨.linkExpression, .linkCondition, .linkOrderList, true⟩

end Dialect
end WorkItemQuery
