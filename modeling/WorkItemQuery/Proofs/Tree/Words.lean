import WorkItemQuery.Tree.Walk

/-!
# The words of trees

The tokens of a list of trees are those of its trees, one after another.
-/

namespace WorkItemQuery
namespace Tree

@[simp]
theorem tokens_leaf (token : Token) : (leaf token).tokens = [token] := rfl

@[simp]
theorem tokens_node (kind : Kind) (children : List Tree) :
    (node kind children).tokens = tokensAll children := rfl

@[simp]
theorem tokensAll_nil : tokensAll [] = [] := rfl

@[simp]
theorem tokensAll_cons (tree : Tree) (rest : List Tree) :
    tokensAll (tree :: rest) = tree.tokens ++ tokensAll rest := rfl

@[simp]
theorem tokensAll_append (front back : List Tree) :
    tokensAll (front ++ back) = tokensAll front ++ tokensAll back := by
  induction front with
  | nil => rfl
  | cons tree front ih => simp [ih]

/-! ## Nesting -/

@[simp]
theorem nesting_leaf (token : Token) : (leaf token).nesting = 0 := rfl

@[simp]
theorem nestingAll_nil : nestingAll [] = 0 := rfl

@[simp]
theorem nestingAll_cons (tree : Tree) (rest : List Tree) :
    nestingAll (tree :: rest) = max tree.nesting (nestingAll rest) := rfl

@[simp]
theorem nestingAll_append (front back : List Tree) :
    nestingAll (front ++ back) = max (nestingAll front) (nestingAll back) := by
  induction front with
  | nil => simp
  | cons tree front ih => simp [ih, Nat.max_assoc]

theorem nesting_le_nestingAll {tree : Tree} {trees : List Tree} (mem : tree ∈ trees) :
    tree.nesting ≤ nestingAll trees := by
  induction mem with
  | head => exact Nat.le_max_left ..
  | tail other _ ih => exact Nat.le_trans ih (Nat.le_max_right ..)

theorem nesting_of_not_isNesting {kind : Kind} {children : List Tree}
    (not_nesting : isNesting kind children = false) :
    (node kind children).nesting = nestingAll children := by
  simp [nesting, not_nesting]

end Tree
end WorkItemQuery
