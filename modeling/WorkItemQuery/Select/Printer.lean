import WorkItemQuery.Select.Reading

/-!
# The canonical text of a query

Words are written in their canonical spelling with single blanks between them.  Field names,
literals and variables are written exactly as they were.
-/

namespace WorkItemQuery

/-- A field name as text. -/
def FieldName.text (field : FieldName) : String := field.identifier.text

/-- A term as text. -/
def Term.text : Term → String
  | .number digits => digits.text
  | .string literal => literal.text
  | .dateTime literal => literal.text
  | .variableRef name => name.text
  | .boolean word => word.canonicalText
  | .field name => name.text

/-- A value as text. -/
def Value.text (value : Value) : String :=
  match value.offset? with
  | none => value.term.text
  | some (sign, number) => value.term.text ++ " " ++ sign.canonicalText ++ " " ++ number.text

/-- Several texts with commas between them. -/
def commaSeparated (texts : List String) : String := ", ".intercalate texts

/-- An operator as text. -/
def Operator.text (operator : Operator) : String :=
  let negation := match operator.negation? with
    | none => ""
    | some word => word.canonicalText ++ " "
  negation ++
    match operator.kind with
    | .containsWords => "CONTAINS WORDS"
    | .inGroup => "IN GROUP"
    | kind => kind.canonicalText?.getD ""

/-- A comparison as text. -/
def Comparison.text (comparison : Comparison) : String :=
  comparison.field.text ++
    match comparison.operand with
    | .compare operator value => " " ++ operator.text ++ " " ++ value.text
    | .member word values =>
      let negation := match comparison.negation? with
        | none => ""
        | some negation => " " ++ negation.canonicalText
      negation ++ " " ++ word.canonicalText ++ " (" ++ commaSeparated (values.map Value.text) ++ ")"

/-- A side of a link as text, or no text. -/
def Side.text? : Option Side → String
  | none => ""
  | some side => side.word.canonicalText ++ "."

/-- A word with a blank behind it, or no text. -/
def wordBefore : Option Token → String
  | none => ""
  | some word => word.canonicalText ++ " "

/-- A word with a blank before it, or no text. -/
def wordBehind : Option Token → String
  | none => ""
  | some word => " " ++ word.canonicalText

mutual

/-- A condition as text. -/
def Condition.text : Condition → String
  | .nested _ inner => "(" ++ inner.text ++ ")"
  | .leaf _ side? comparison => Side.text? side? ++ comparison.text

/-- A chain of conditions as text. -/
def Expression.text : Expression → String
  | .done => ""
  | .link modifier? condition connective? rest =>
    wordBefore modifier? ++ condition.text ++
      (match connective? with
        | none => ""
        | some word => " " ++ word.canonicalText ++ " ") ++
      rest.text

end

/-- A sort key as text. -/
def SortKey.text (key : SortKey) : String :=
  Side.text? key.side? ++ key.field.text ++ wordBehind key.direction?

/-- The mode clause of a query as text. -/
def Scope.modeText : Scope → String
  | .flat => ""
  | .oneHop none => ""
  | .oneHop (some mode) => " MODE (" ++ mode.canonicalText ++ ")"
  | .recursive _ none => " MODE (Recursive)"
  | .recursive _ (some matching) => " MODE (Recursive, " ++ matching.canonicalText ++ ")"

/-- The source of a query as text. -/
def Scope.sourceText (scope : Scope) : String :=
  if scope.isLink then "WorkItemLinks" else "WorkItems"

/-- The canonical text of a query. -/
def Select.text (select : Select) : String :=
  "SELECT " ++ commaSeparated (select.fields.map FieldName.text) ++
    " FROM " ++ select.scope.sourceText ++
    (match select.filter? with
      | none => ""
      | some filter => " WHERE " ++ filter.text) ++
    (match select.order? with
      | none => ""
      | some order => " ORDER BY " ++ commaSeparated (order.map SortKey.text)) ++
    (match select.asOf? with
      | none => ""
      | some date => " ASOF " ++ date.text) ++
    select.scope.modeText

/-- The canonical text of the query of a node, if its kind is one of a query. -/
def Tree.format? (tree : Tree) : Option (Except BrokenRole String) :=
  tree.readSelect?.map fun select => Select.text <$> select

end WorkItemQuery
