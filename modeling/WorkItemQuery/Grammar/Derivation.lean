import WorkItemQuery.Tree.Walk

/-!
# Derivation trees

The grammar of the query language, rule by rule, as the trees that it derives.  It says nothing of
how a token list is read: a sentence is whatever the tokens of such a tree spell out.
-/

namespace WorkItemQuery
namespace Grammar

/-- A field name. -/
inductive IsField : Tree → Prop where
  | name (name : Token) : name.kind = .identifier → IsField (.node .field [.leaf name])

/-- Digits, with a minus before them or not. -/
inductive IsNumber : Tree → Prop where
  | plain (digits : Token) : digits.kind = .digits → IsNumber (.node .number [.leaf digits])
  | negative (minus digits : Token) : minus.kind = .minus → digits.kind = .digits →
      IsNumber (.node .number [.leaf minus, .leaf digits])

/-- A date, which is written as a string literal. -/
inductive IsDate : Tree → Prop where
  | literal (text : Token) : text.kind = .string → IsDate (.node .dateTime [.leaf text])

/-- The values that are a single token. -/
def simpleTerms : KindSet := .ofList [.string, .variableRef, .trueKw, .falseKw]

/-- What a value is built on. -/
inductive IsTerm : Tree → Prop where
  | number (tree : Tree) : IsNumber tree → IsTerm tree
  | field (tree : Tree) : IsField tree → IsTerm tree
  | simple (token : Token) : token.kind ∈ simpleTerms → IsTerm (.leaf token)

/-- A term, with an offset behind it or not. -/
inductive IsValue : Tree → Prop where
  | plain (term : Tree) : IsTerm term → IsValue (.node .value [term])
  | shifted (term : Tree) (sign : Token) (offset : Tree) : IsTerm term →
      sign.kind ∈ KindSet.plusMinus → IsNumber offset →
      IsValue (.node .value [term, .leaf sign, offset])

/-- Items with separators between them, as nested nodes of a kind. -/
inductive IsChain (kind : Kind) (separators : KindSet) (IsItem : List Tree → Prop) : Tree → Prop
    where
  | last (item : List Tree) : IsItem item → IsChain kind separators IsItem (.node kind item)
  | more (item : List Tree) (separator : Token) (rest : Tree) : IsItem item →
      separator.kind ∈ separators → IsChain kind separators IsItem rest →
      IsChain kind separators IsItem (.node kind (item ++ [.leaf separator, rest]))

/-- Values with commas between them. -/
def IsValueList : Tree → Prop :=
  IsChain .valueList (.single .comma) fun item => ∃ value, item = [value] ∧ IsValue value

/-- Fields with commas between them. -/
def IsFieldList : Tree → Prop :=
  IsChain .fieldList (.single .comma) fun item => ∃ field, item = [field] ∧ IsField field

/-- No tree, or one token of a kind in a set. -/
inductive IsOptional (kinds : KindSet) : List Tree → Prop where
  | absent : IsOptional kinds []
  | present (token : Token) : token.kind ∈ kinds → IsOptional kinds [.leaf token]

/-- The operator proper. -/
inductive IsOperatorProper : Tree → Prop where
  | single (token : Token) : token.kind ∈ KindSet.comparisonOperators ∨ token.kind = .everKw ∨
      token.kind = .containsKw → IsOperatorProper (.leaf token)
  | containsWords (contains words : Token) : contains.kind = .containsKw →
      words.kind = .wordsKw →
      IsOperatorProper (.node .containsWords [.leaf contains, .leaf words])
  | inGroup (word group : Token) : word.kind = .inKw → group.kind = .groupKw →
      IsOperatorProper (.node .inGroup [.leaf word, .leaf group])

/-- An operator, with a `NOT` before it or not. -/
inductive IsOperator : Tree → Prop where
  | operator (negation : List Tree) (proper : Tree) : IsOptional (.single .notKw) negation →
      IsOperatorProper proper → IsOperator (.node .operator (negation ++ [proper]))

/-- What a condition says of its field. -/
inductive IsComparison : List Tree → Prop where
  | compare (operator value : Tree) : IsOperator operator → IsValue value →
      IsComparison [operator, value]
  | member (negation : List Tree) (word opened : Token) (values : Tree) (closed : Token) :
      IsOptional (.single .notKw) negation → word.kind = .inKw → opened.kind = .leftParen →
      IsValueList values → closed.kind = .rightParen →
      IsComparison (negation ++ [.leaf word, .leaf opened, values, .leaf closed])

/-- A side of a link with its dot. -/
inductive IsSide : Tree → Prop where
  | source (word dot : Token) : word.kind = .sourceKw → dot.kind = .dot →
      IsSide (.node .sourceSide [.leaf word, .leaf dot])
  | target (word dot : Token) : word.kind = .targetKw → dot.kind = .dot →
      IsSide (.node .targetSide [.leaf word, .leaf dot])

/-- No tree, or a side of a link where the dialect has sides. -/
inductive IsOptionalSide (form : Dialect) : List Tree → Prop where
  | absent : IsOptionalSide form []
  | present (side : Tree) : form.hasSides = true → IsSide side → IsOptionalSide form [side]

mutual

/-- A condition: an expression between parentheses, or a field and what is said of it. -/
inductive IsCondition (form : Dialect) : Tree → Prop where
  | nested (opened : Token) (inner : Tree) (closed : Token) : opened.kind = .leftParen →
      IsExpression form inner → closed.kind = .rightParen →
      IsCondition form (.node form.condition [.leaf opened, inner, .leaf closed])
  | leaf (side : List Tree) (field : Tree) (comparison : List Tree) : IsOptionalSide form side →
      IsField field → IsComparison comparison →
      IsCondition form (.node form.condition (side ++ field :: comparison))

/-- Conditions with `AND` and `OR` between them, each with `EVER` or `NOT` before it or not. -/
inductive IsExpression (form : Dialect) : Tree → Prop where
  | last (modifier : List Tree) (condition : Tree) : IsOptional .everNot modifier →
      IsCondition form condition →
      IsExpression form (.node form.expression (modifier ++ [condition]))
  | more (modifier : List Tree) (condition : Tree) (connective : Token) (rest : Tree) :
      IsOptional .everNot modifier → IsCondition form condition →
      connective.kind ∈ KindSet.andOr → IsExpression form rest →
      IsExpression form (.node form.expression (modifier ++ [condition, .leaf connective, rest]))

end

/-- A sort key: a field, behind a side where the dialect has sides, and a direction or none. -/
inductive IsSortKey (form : Dialect) : List Tree → Prop where
  | key (side : List Tree) (field : Tree) (direction : List Tree) : IsOptionalSide form side →
      IsField field → IsOptional .ascDesc direction →
      IsSortKey form (side ++ field :: direction)

/-- Sort keys with commas between them. -/
def IsOrderList (form : Dialect) : Tree → Prop :=
  IsChain form.order (.single .comma) (IsSortKey form)

/-- No tree, or a word and what belongs behind it. -/
inductive IsClause (word : Kind) (IsBody : Tree → Prop) : List Tree → Prop where
  | absent : IsClause word IsBody []
  | present (token : Token) (body : Tree) : token.kind = word → IsBody body →
      IsClause word IsBody [.leaf token, body]

/-- The inside of a mode clause, with the kind of query that it makes. -/
inductive IsMode : Kind → List Tree → Prop where
  | oneHop (word : Token) : word.kind ∈ KindSet.linkMode → IsMode .oneHopSelect [.leaf word]
  | recursive (word : Token) : word.kind = .recursiveKw → IsMode .recursiveSelect [.leaf word]
  | matching (word comma matching : Token) : word.kind = .recursiveKw → comma.kind = .comma →
      matching.kind = .matchingChildrenKw →
      IsMode .recursiveSelect [.leaf word, .leaf comma, .leaf matching]

/-- No tree, or a mode clause, with the kind of query that it makes. -/
inductive IsModeClause : Kind → List Tree → Prop where
  | absent : IsModeClause .oneHopSelect []
  | present (kind : Kind) (word opened : Token) (inside : List Tree) (closed : Token) :
      word.kind = .modeKw → opened.kind = .leftParen → IsMode kind inside →
      closed.kind = .rightParen →
      IsModeClause kind (.leaf word :: .leaf opened :: inside ++ [.leaf closed])

/-- The date and the mode of a query about links, in either order. -/
inductive IsLinkClauses : Kind → List Tree → Prop where
  | dateFirst (kind : Kind) (date mode : List Tree) : IsClause .asofKw IsDate date →
      IsModeClause kind mode → IsLinkClauses kind (date ++ mode)
  | modeFirst (kind : Kind) (mode date : List Tree) : IsModeClause kind mode →
      IsClause .asofKw IsDate date → IsLinkClauses kind (mode ++ date)

/-- The words and fields that every query begins with. -/
inductive IsHead (source : Kind) : List Tree → Prop where
  | head (select : Token) (fields : Tree) (origin place : Token) : select.kind = .selectKw →
      IsFieldList fields → origin.kind = .fromKw → place.kind = source →
      IsHead source [.leaf select, fields, .leaf origin, .leaf place]

/-- The conditions and the sort keys of a query. -/
inductive IsFilter (form : Dialect) : List Tree → Prop where
  | filter (conditions order : List Tree) : IsClause .whereKw (IsExpression form) conditions →
      IsClause .orderByKw (IsOrderList form) order → IsFilter form (conditions ++ order)

/-- A query. -/
inductive IsQuery : Tree → Prop where
  | flat (head filter date : List Tree) : IsHead .workItemsKw head → IsFilter .flat filter →
      IsClause .asofKw IsDate date → IsQuery (.node .flatSelect (head ++ filter ++ date))
  | link (kind : Kind) (head filter clauses : List Tree) : IsHead .workItemLinksKw head →
      IsFilter .link filter → IsLinkClauses kind clauses →
      IsQuery (.node kind (head ++ filter ++ clauses))

/-- The kinds spell out a query. -/
def Sentence (kinds : List Kind) : Prop :=
  ∃ tree, IsQuery tree ∧ tree.tokens.map (fun token : Token => token.kind) = kinds

/-- The kinds begin a query, with its end mark if it is complete. -/
def Viable (kinds : List Kind) : Prop :=
  ∃ sentence, Sentence sentence ∧ kinds <+: sentence ++ [.endMark]

end Grammar
end WorkItemQuery
