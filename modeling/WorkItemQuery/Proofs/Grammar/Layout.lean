import WorkItemQuery.Proofs.Grammar.Nodes
import WorkItemQuery.Proofs.Tree.Layout

/-!
# Blanks in derivation trees

Most parts of a derivation tree have blanks around them: they neither open nor close anything.
-/

namespace WorkItemQuery

open WorkItemQuery.Tree (IsFree tightNodes opening closing)

namespace Grammar

theorem IsField.isFree {tree : Tree} (is_field : IsField tree) : IsFree tree.kind := by
  rw [is_field.kind_eq]
  decide

theorem IsNumber.isFree {tree : Tree} (is_number : IsNumber tree) : IsFree tree.kind := by
  rw [is_number.kind_eq]
  decide

theorem IsDate.isFree {tree : Tree} (is_date : IsDate tree) : IsFree tree.kind := by
  rw [is_date.kind_eq]
  decide

theorem IsTerm.isFree {tree : Tree} (is_term : IsTerm tree) : IsFree tree.kind := by
  have kinds : ∀ kind ∈ KindSet.valueKinds, IsFree kind := by decide
  exact kinds _ is_term.mem_valueKinds.1

theorem IsValue.isFree {tree : Tree} (is_value : IsValue tree) : IsFree tree.kind := by
  rw [is_value.kind_eq]
  decide

theorem IsFieldList.isFree {tree : Tree} (is_list : IsFieldList tree) : IsFree tree.kind := by
  rw [IsChain.kind_eq is_list]
  decide

theorem IsOperatorProper.isFree {tree : Tree} (is_proper : IsOperatorProper tree) :
    IsFree tree.kind := by
  have kinds : ∀ kind ∈ KindSet.conditionTokens, IsFree kind := by decide
  exact kinds _ is_proper.kind_mem

theorem IsOperator.isFree {tree : Tree} (is_operator : IsOperator tree) : IsFree tree.kind := by
  rw [is_operator.kind_eq]
  decide

theorem IsSide.kind_mem_opening {tree : Tree} (is_side : IsSide tree) : tree.kind ∈ opening := by
  have kinds : ∀ kind ∈ KindSet.sideNode, kind ∈ opening := by decide
  exact kinds _ is_side.kind_mem

/-- The nodes of a dialect have blanks around them and between their children. -/
theorem IsForm.isFree {form : Dialect} (is_form : IsForm form) {kind : Kind}
    (kind_eq : kind = form.condition ∨ kind = form.expression ∨ kind = form.order) :
    kind ∉ tightNodes ∧ IsFree kind := by
  obtain rfl | rfl := is_form <;> obtain rfl | rfl | rfl := kind_eq <;> decide

theorem IsCondition.isFree {form : Dialect} {tree : Tree} (is_form : IsForm form)
    (is_condition : IsCondition form tree) : IsFree tree.kind :=
  (is_form.isFree (.inl is_condition.kind_eq)).2

theorem IsExpression.isFree {form : Dialect} {tree : Tree} (is_form : IsForm form)
    (is_expression : IsExpression form tree) : IsFree tree.kind :=
  (is_form.isFree (.inr (.inl is_expression.kind_eq))).2

theorem IsOrderList.isFree {form : Dialect} {tree : Tree} (is_form : IsForm form)
    (is_list : IsOrderList form tree) : IsFree tree.kind :=
  (is_form.isFree (.inr (.inr (IsChain.kind_eq is_list)))).2

end Grammar
end WorkItemQuery
