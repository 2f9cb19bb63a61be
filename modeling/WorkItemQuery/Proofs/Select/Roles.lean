import WorkItemQuery.Proofs.Steps
import WorkItemQuery.Proofs.Tree.Lookup
import WorkItemQuery.Select.Reading

/-!
# Conditions and the roles of their children

A condition without a nested expression is read from the children that play its roles.  A chain of
conditions is read from its first condition and the rest of the chain.
-/

namespace WorkItemQuery
namespace Tree

variable {form : Dialect} {tree : Tree}

/-- A condition with an operator and a value is a comparison. -/
theorem readLeaf_of_compare {field operator value : Tree} {side? : Option Side} {name : FieldName}
    {relation : Operator} {right : Value} (found_field : tree.part? .field = some field)
    (found_operator : tree.part? .operator = some operator)
    (found_value : tree.part? .value = some value) (reads_side : tree.readSideOf form = .ok side?)
    (reads_field : field.readField = .ok name) (reads_operator : operator.readOperator = .ok relation)
    (reads_value : value.readValue = .ok right) :
    tree.readLeaf form = .ok (.leaf (tree.conditionParts form) side?
      ⟨name, tree.tokenInput? (.single .notKw), .compare relation right⟩) := by
  rw [readLeaf, requirePart_of_some found_field]
  simp only [found_operator, found_value, reads_side, reads_field, reads_operator, reads_value,
    ok_bind]
  rfl

/-- A condition with `IN` and a list of values, and without an operator or without a value, asks
whether the field is in the list. -/
theorem readLeaf_of_member {field list : Tree} {word : Token} {side? : Option Side}
    {name : FieldName} {values : List Value} (found_field : tree.part? .field = some field)
    (no_compare : tree.part? .operator = none ∨ tree.part? .value = none)
    (found_word : tree.tokenInput? (.single .inKw) = some word)
    (found_list : tree.part? .valueList = some list) (reads_side : tree.readSideOf form = .ok side?)
    (reads_field : field.readField = .ok name) (reads_list : list.readValues = .ok values) :
    tree.readLeaf form = .ok (.leaf (tree.conditionParts form) side?
      ⟨name, tree.tokenInput? (.single .notKw), .member word values⟩) := by
  rw [readLeaf, requirePart_of_some found_field, requireToken_of_some found_word,
    requirePart_of_some found_list]
  obtain none_found | none_found := no_compare
  · simp only [none_found, reads_side, reads_field, reads_list, ok_bind]
    rfl
  · cases tree.part? .operator <;>
      simp only [none_found, reads_side, reads_field, reads_list, ok_bind] <;> rfl

/-- What the nested expression of a condition, or its comparison, is read as. -/
theorem readCondition_of_nested {inner : Tree} {nested : Expression}
    (found : tree.part? form.expression = some inner)
    (reads : inner.readExpression form = .ok nested) :
    tree.readCondition form = .ok (.nested (tree.conditionParts form) nested) := by
  rw [readCondition, found]
  simp only [reads]
  rfl

theorem readCondition_of_leaf (not_found : tree.part? form.expression = none) :
    tree.readCondition form = tree.readLeaf form := by
  rw [readCondition, not_found]

/-- What comes behind the first condition of a chain is read. -/
inductive ReadsRest (form : Dialect) (tree : Tree) : Expression → Prop where
  | done : tree.part? form.expression = none → ReadsRest form tree .done
  | link (next : Tree) (rest : Expression) : tree.part? form.expression = some next →
      next.readExpression form = .ok rest → ReadsRest form tree rest

/-- A chain of conditions is its first condition and the rest of the chain. -/
theorem readExpression_of_parts {child : Tree} {condition : Condition} {rest : Expression}
    (found : tree.part? form.condition = some child)
    (reads : child.readCondition form = .ok condition) (reads_rest : ReadsRest form tree rest) :
    tree.readExpression form =
      .ok (.link (tree.tokenInput? .everNot) condition (tree.tokenInput? .andOr) rest) := by
  rw [readExpression]
  split
  · rename_i not_found
    rw [found] at not_found
    cases not_found
  rename_i other found_other
  rw [found] at found_other
  cases found_other
  refine bind_eq_of_ok condition ?_ (bind_eq_of_ok rest ?_ rfl)
  · rw [← reads, readCondition]
    split
    · rename_i inner found_inner
      rw [found_inner]
      dsimp only
      cases inner.readExpression form <;> rfl
    · rename_i not_found
      rw [not_found]
  · cases reads_rest with
    | done not_found =>
        split
        · rename_i next found_next
          rw [not_found] at found_next
          cases found_next
        · rfl
    | link next rest found_next reads_next =>
        split
        · rename_i other found_other
          rw [found_next] at found_other
          cases found_other
          exact reads_next
        · rename_i not_found
          rw [found_next] at not_found
          cases not_found

end Tree
end WorkItemQuery
