import WorkItemQuery.Kind

/-!
# Sets of kinds

A set of kinds is its membership test.  The named sets say which kinds can play a role in a node
or begin a production of the grammar.
-/

namespace WorkItemQuery

/-- A set of kinds. -/
structure KindSet where
  /-- The membership test. -/
  contains : Kind → Bool

namespace KindSet

instance : Membership Kind KindSet where
  mem set kind := set.contains kind = true

instance (kind : Kind) (set : KindSet) : Decidable (kind ∈ set) :=
  inferInstanceAs (Decidable (set.contains kind = true))

/-- The set of the listed kinds. -/
def ofList (kinds : List Kind) : KindSet := ⟨fun kind => kinds.contains kind⟩

/-- The set of one kind. -/
def single (kind : Kind) : KindSet := ⟨fun other => other == kind⟩

/-- The kinds from the first to the last, both included, in the fixed order. -/
def range (first last : Kind) : KindSet :=
  ⟨fun kind => first.code ≤ kind.code && kind.code ≤ last.code⟩

/-- The kinds in either set. -/
def union (left right : KindSet) : KindSet :=
  ⟨fun kind => left.contains kind || right.contains kind⟩

/-- The kinds of the set, in the fixed order. -/
def toList (set : KindSet) : List Kind := Kind.all.filter set.contains

theorem mem_iff_contains {kind : Kind} {set : KindSet} :
    kind ∈ set ↔ set.contains kind = true := Iff.rfl

@[simp]
theorem mem_ofList {kind : Kind} {kinds : List Kind} : kind ∈ ofList kinds ↔ kind ∈ kinds := by
  simp [mem_iff_contains, ofList]

@[simp]
theorem mem_single {kind other : Kind} : kind ∈ single other ↔ kind = other := by
  simp [mem_iff_contains, single]

@[simp]
theorem mem_range {kind first last : Kind} :
    kind ∈ range first last ↔ first.code ≤ kind.code ∧ kind.code ≤ last.code := by
  simp [mem_iff_contains, range]

@[simp]
theorem mem_union {kind : Kind} {left right : KindSet} :
    kind ∈ left.union right ↔ kind ∈ left ∨ kind ∈ right := by
  simp [mem_iff_contains, union]

@[simp]
theorem mem_toList {kind : Kind} {set : KindSet} : kind ∈ set.toList ↔ kind ∈ set := by
  simp [toList, mem_iff_contains]

/-- The set as text: the labels of its kinds between braces. -/
def render (set : KindSet) : String :=
  "\x7b" ++ ", ".intercalate (set.toList.map Kind.label) ++ "\x7d"

/-- The empty set. -/
def empty : KindSet := ofList []

/-- The kinds of the tokens that are read from a text. -/
def anyToken : KindSet := range .selectKw .matchingChildrenKw

/-- The kinds of nodes. -/
def anyNode : KindSet := range .number .recursiveSelect

/-- The directions of a sort key. -/
def ascDesc : KindSet := ofList [.ascKw, .descKw]

/-- The words that may stand before a condition. -/
def everNot : KindSet := ofList [.everKw, .notKw]

/-- The words that join conditions. -/
def andOr : KindSet := ofList [.andKw, .orKw]

/-- The signs before an offset. -/
def plusMinus : KindSet := ofList [.plus, .minus]

/-- The two sides of a link. -/
def linkSide : KindSet := ofList [.sourceKw, .targetKw]

/-- The nodes of the two sides of a link. -/
def sideNode : KindSet := ofList [.sourceSide, .targetSide]

/-- The modes of a one-hop query. -/
def linkMode : KindSet := ofList [.mustContainKw, .mayContainKw, .doesNotContainKw]

/-- What can be the operator proper of an operator node. -/
def conditionTokens : KindSet :=
  ofList [.equals, .notEquals, .greater, .greaterEq, .less, .lessEq, .containsKw, .containsWords,
    .likeKw, .underKw, .inGroup, .everKw]

/-- The operators of a single token. -/
def comparisonOperators : KindSet :=
  ofList [.equals, .notEquals, .greater, .greaterEq, .less, .lessEq, .likeKw, .underKw]

/-- What can be the term of a value node. -/
def valueKinds : KindSet :=
  ofList [.number, .string, .dateTime, .variableRef, .trueKw, .falseKw, .field]

/-- The tokens that begin a value. -/
def valueFirst : KindSet :=
  ofList [.digits, .minus, .string, .variableRef, .trueKw, .falseKw, .identifier]

/-- The blanks between tokens. -/
def trivia : KindSet := ofList [.whitespace, .newline]

/-- The tokens that mark a mistake in the text itself. -/
def lexicalErrors : KindSet := ofList [.unrecognized, .openString]

end KindSet
end WorkItemQuery
