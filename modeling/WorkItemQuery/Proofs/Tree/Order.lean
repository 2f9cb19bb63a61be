import WorkItemQuery.Proofs.Tree.Words

/-!
# The order of a tree

The walk with a stack meets the nodes of a tree in the order of the recursion.  The first and the
last token of a tree are those of its word, and the words of its nodes are stretches of its own.
-/

namespace WorkItemQuery
namespace Tree

/-! ## Nodes -/

@[simp]
theorem preOrder_leaf (token : Token) : (leaf token).preOrder = [] := rfl

@[simp]
theorem preOrder_node (kind : Kind) (children : List Tree) :
    (node kind children).preOrder = node kind children :: preOrderAll children := rfl

@[simp]
theorem preOrderAll_nil : preOrderAll [] = [] := rfl

@[simp]
theorem preOrderAll_cons (tree : Tree) (rest : List Tree) :
    preOrderAll (tree :: rest) = tree.preOrder ++ preOrderAll rest := rfl

@[simp]
theorem preOrderAll_append (front back : List Tree) :
    preOrderAll (front ++ back) = preOrderAll front ++ preOrderAll back := by
  induction front with
  | nil => rfl
  | cons tree front ih => simp [ih]

theorem mem_preOrderAll {node : Tree} {trees : List Tree} (mem : node ∈ preOrderAll trees) :
    ∃ tree ∈ trees, node ∈ tree.preOrder := by
  induction trees with
  | nil => cases mem
  | cons tree rest ih =>
      rw [preOrderAll, List.mem_append] at mem
      obtain mem | mem := mem
      · exact ⟨tree, .head _, mem⟩
      · obtain ⟨other, other_mem, mem⟩ := ih mem
        exact ⟨other, .tail _ other_mem, mem⟩

/-- Tokens among the children of a node are passed over. -/
theorem preOrderAll_nodesAmong (trees : List Tree) :
    preOrderAll (nodesAmong trees) = preOrderAll trees := by
  induction trees with
  | nil => rfl
  | cons tree rest ih =>
      cases tree with
      | leaf token => exact ih
      | node kind children => exact congrArg ((node kind children).preOrder ++ ·) ih

/-- The stack holds what the recursion has still to do. -/
theorem unstack_eq_preOrderAll (stack : List Tree) : unstack stack = preOrderAll stack := by
  induction stack using unstack.induct with
  | case1 => rw [unstack, preOrderAll_nil]
  | case2 token rest ih => rw [unstack, ih, preOrderAll_cons, preOrder_leaf, List.nil_append]
  | case3 kind children rest ih =>
      rw [unstack, ih, preOrderAll_append, preOrderAll_nodesAmong]
      rfl

theorem descendants_eq_preOrder (tree : Tree) : tree.descendants = tree.preOrder := by
  rw [descendants, unstack_eq_preOrderAll, preOrderAll_cons, preOrderAll_nil, List.append_nil]

mutual

/-- What a tree passes on to its children holds of all its nodes. -/
theorem forall_mem_preOrder {holds : Tree → Prop}
    (step : ∀ tree, holds tree → ∀ child ∈ tree.children, holds child) :
    (tree : Tree) → holds tree → ∀ node ∈ tree.preOrder, holds node
  | .leaf _, _ => List.forall_mem_nil _
  | .node kind children, tree_holds => by
      rw [preOrder_node]
      refine List.forall_mem_cons.2 ⟨tree_holds, ?_⟩
      exact forall_mem_preOrderAll step children (step _ tree_holds)

theorem forall_mem_preOrderAll {holds : Tree → Prop}
    (step : ∀ tree, holds tree → ∀ child ∈ tree.children, holds child) :
    (trees : List Tree) → (∀ tree ∈ trees, holds tree) → ∀ node ∈ preOrderAll trees, holds node
  | [], _ => List.forall_mem_nil _
  | tree :: rest, all_hold => by
      obtain ⟨tree_holds, rest_hold⟩ := List.forall_mem_cons.1 all_hold
      rw [preOrderAll_cons]
      exact List.forall_mem_append.2
        ⟨forall_mem_preOrder step tree tree_holds, forall_mem_preOrderAll step rest rest_hold⟩

end

mutual

/-- Among the nodes of a tree there are no tokens. -/
theorem node?_of_mem_preOrder {node : Tree} : {tree : Tree} → node ∈ tree.preOrder →
    node.node? = some node
  | .leaf _, mem => nomatch mem
  | .node kind children, mem => by
      rw [preOrder_node] at mem
      obtain rfl | mem := List.mem_cons.1 mem
      · rfl
      · exact node?_of_mem_preOrderAll mem

theorem node?_of_mem_preOrderAll {node : Tree} : {trees : List Tree} →
    node ∈ preOrderAll trees → node.node? = some node
  | [], mem => nomatch mem
  | tree :: rest, mem => by
      rw [preOrderAll_cons] at mem
      obtain mem | mem := List.mem_append.1 mem
      · exact node?_of_mem_preOrder mem
      · exact node?_of_mem_preOrderAll mem

end

/-! ## Tokens -/

theorem tokensAll_eq_flatMap (trees : List Tree) : tokensAll trees = trees.flatMap tokens := by
  induction trees with
  | nil => rfl
  | cons tree rest ih => rw [tokensAll_cons, ih, List.flatMap_cons]

mutual

theorem firstToken?_eq : (tree : Tree) → tree.firstToken? = tree.tokens.head?
  | .leaf _ => rfl
  | .node _ children => firstTokenOf?_eq children

theorem firstTokenOf?_eq : (trees : List Tree) → firstTokenOf? trees = (tokensAll trees).head?
  | [] => rfl
  | tree :: rest => by
      rw [firstTokenOf?, firstToken?_eq tree, firstTokenOf?_eq rest, tokensAll_cons,
        List.head?_append]

end

mutual

theorem lastToken?_eq : (tree : Tree) → tree.lastToken? = tree.tokens.getLast?
  | .leaf _ => rfl
  | .node _ children => lastTokenOf?_eq children

theorem lastTokenOf?_eq : (trees : List Tree) → lastTokenOf? trees = (tokensAll trees).getLast?
  | [] => rfl
  | tree :: rest => by
      rw [lastTokenOf?, lastToken?_eq tree, lastTokenOf?_eq rest, tokensAll_cons,
        List.getLast?_append]

end

theorem tokens_infix_tokensAll {tree : Tree} {trees : List Tree} (mem : tree ∈ trees) :
    tree.tokens <:+: tokensAll trees := by
  obtain ⟨front, back, rfl⟩ := List.append_of_mem mem
  exact ⟨tokensAll front, tokensAll back, by simp⟩

/-- The word of a node is a stretch of the word of the tree. -/
theorem tokens_infix {tree node : Tree} (mem : node ∈ tree.preOrder) :
    node.tokens <:+: tree.tokens := by
  have step : ∀ inner : Tree, inner.tokens <:+: tree.tokens → ∀ child ∈ inner.children,
      child.tokens <:+: tree.tokens := by
    intro inner within child child_mem
    cases inner with
    | leaf token => cases child_mem
    | node kind children => exact (tokens_infix_tokensAll child_mem).trans within
  exact forall_mem_preOrder step tree (List.infix_refl _) node mem

end Tree
end WorkItemQuery
