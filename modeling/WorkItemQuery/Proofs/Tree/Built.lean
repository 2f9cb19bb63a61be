import WorkItemQuery.Proofs.Steps
import WorkItemQuery.Proofs.Tree.Lookup

/-!
# Trees that are built from below

A tree is built if each of its nodes has passed the shape check and no token carries the kind of a
node.  Then a child whose kind is one of a node is a node, and any other is a token, so that the
roles which the shape check requires are played by children of the right sort.
-/

namespace WorkItemQuery
namespace Tree

/-- Every node has passed the shape check, and no token carries the kind of a node. -/
inductive IsBuilt : Tree → Prop where
  | leaf (token : Token) : token.kind.isNode = false → IsBuilt (.leaf token)
  | node (kind : Kind) (children : List Tree) (tree : Tree) :
      (∀ child ∈ children, IsBuilt child) → build kind children = .ok tree → IsBuilt tree

variable {tree : Tree} {kind : Kind} {kinds : KindSet}

theorem build_eq_ok {children : List Tree} (built : build kind children = .ok tree) :
    tree = node kind children ∧ (node kind children).checkShape = .ok () := by
  unfold build at built
  cases shape : (node kind children).checkShape with
  | error error =>
      rw [shape] at built
      cases built
  | ok =>
      rw [shape] at built
      cases built
      exact ⟨rfl, rfl⟩

theorem isNode_of_checkShape {children : List Tree}
    (shape : (node kind children).checkShape = .ok ()) : kind.isNode = true := by
  cases kind <;> first | rfl | cases shape

theorem IsBuilt.of_checkShape {children : List Tree} (all_built : ∀ child ∈ children, IsBuilt child)
    (shape : (Tree.node kind children).checkShape = .ok ()) : IsBuilt (.node kind children) := by
  refine .node kind children _ all_built ?_
  unfold build
  rw [shape]
  rfl

/-- A built tree is a token, or a node that has passed the check. -/
theorem IsBuilt.leaf_or_node (built : IsBuilt tree) :
    (∃ token, tree = .leaf token ∧ token.kind.isNode = false) ∨
      tree.node? = some tree ∧ tree.kind.isNode = true ∧ tree.checkShape = .ok () := by
  cases built with
  | leaf token not_node => exact .inl ⟨token, rfl, not_node⟩
  | node kind children _ all_built build_eq =>
      obtain ⟨rfl, shape⟩ := build_eq_ok build_eq
      exact .inr ⟨rfl, isNode_of_checkShape shape, shape⟩

theorem IsBuilt.child (built : IsBuilt tree) {child : Tree} (mem : child ∈ tree.children) :
    IsBuilt child := by
  cases built with
  | leaf token => cases mem
  | node kind children _ all_built build_eq =>
      obtain ⟨rfl, -⟩ := build_eq_ok build_eq
      exact all_built child mem

/-- Where the kind is one of a node, the tree is a node that has passed the check. -/
theorem IsBuilt.of_isNode (built : IsBuilt tree) (is_node : tree.kind.isNode = true) :
    tree.node? = some tree ∧ tree.checkShape = .ok () := by
  obtain ⟨token, rfl, not_node⟩ | ⟨node_eq, -, shape⟩ := built.leaf_or_node
  · rw [kind_leaf, not_node] at is_node
    cases is_node
  · exact ⟨node_eq, shape⟩

theorem IsBuilt.node?_eq (built : IsBuilt tree) (is_node : tree.kind.isNode = true) :
    tree.node? = some tree := (built.of_isNode is_node).1

theorem IsBuilt.checkShape_eq (built : IsBuilt tree) (is_node : tree.kind.isNode = true) :
    tree.checkShape = .ok () := (built.of_isNode is_node).2

theorem IsBuilt.exists_leaf (built : IsBuilt tree) (not_node : tree.kind.isNode = false) :
    ∃ token, tree = .leaf token := by
  obtain ⟨token, rfl, -⟩ | ⟨-, is_node, -⟩ := built.leaf_or_node
  · exact ⟨token, rfl⟩
  · rw [not_node] at is_node
    cases is_node

/-! ## Looking up children -/

theorem kind_mem_of_nthInput? {child : Tree} {occurrence : Nat}
    (found : tree.nthInput? kinds occurrence = some child) : child.kind ∈ kinds := by
  cases occurrence with
  | zero => cases found
  | succ before => exact (List.mem_filter.1 (List.mem_of_getElem? found)).2

/-- Children whose kinds are those of nodes are found as nodes. -/
theorem IsBuilt.nthNode?_eq (built : IsBuilt tree) (nodes : ∀ kind ∈ kinds, kind.isNode = true)
    (occurrence : Nat) : tree.nthNode? kinds occurrence = tree.nthInput? kinds occurrence := by
  rw [nthNode?]
  cases found : tree.nthInput? kinds occurrence with
  | none => rfl
  | some child =>
      have child_built := built.child (mem_children_of_nthInput? found)
      exact child_built.node?_eq (nodes _ (kind_mem_of_nthInput? found))

/-- A child that is found as a node is one of its kinds and built. -/
theorem IsBuilt.of_nthNode? (built : IsBuilt tree) {child : Tree} {occurrence : Nat}
    (found : tree.nthNode? kinds occurrence = some child) : IsBuilt child ∧ child.kind ∈ kinds := by
  obtain ⟨other, found, node_eq⟩ := Option.bind_eq_some_iff.1 found
  have same : other = child := by
    cases other with
    | leaf token => cases node_eq
    | node kind children => exact Option.some.inj node_eq
  rw [same] at found
  exact ⟨built.child (mem_children_of_nthInput? found), kind_mem_of_nthInput? found⟩

theorem IsBuilt.exists_node (built : IsBuilt tree) (nodes : ∀ kind ∈ kinds, kind.isNode = true)
    (has : tree.has kinds = true) : ∃ child, tree.nodeInput? kinds = some child := by
  rw [nodeInput?, built.nthNode?_eq nodes]
  exact Option.isSome_iff_exists.1 has

theorem IsBuilt.exists_token (built : IsBuilt tree) (tokens : ∀ kind ∈ kinds, kind.isNode = false)
    (has : tree.has kinds = true) :
    ∃ token, tree.tokenInput? kinds = some token ∧ token.kind ∈ kinds := by
  obtain ⟨child, found⟩ := Option.isSome_iff_exists.1 has
  have kind_mem := kind_mem_of_nthInput? found
  obtain ⟨token, rfl⟩ := (built.child (mem_children_of_nthInput? found)).exists_leaf
    (tokens _ kind_mem)
  refine ⟨token, ?_, kind_mem⟩
  rw [tokenInput?, found]
  rfl

theorem IsBuilt.exists_part (built : IsBuilt tree) (is_node : kind.isNode = true)
    (has : tree.has (.single kind) = true) :
    ∃ part, tree.part? kind = some part ∧ IsBuilt part ∧ part.kind = kind := by
  obtain ⟨part, found⟩ := built.exists_node (by simpa using is_node) has
  obtain ⟨part_built, kind_mem⟩ := built.of_nthNode? found
  exact ⟨part, found, part_built, KindSet.mem_single.1 kind_mem⟩

theorem input?_eq_none (absent : tree.has kinds = false) : tree.input? kinds = none := by
  simpa [has] using absent

theorem nodeInput?_eq_none (absent : tree.has kinds = false) : tree.nodeInput? kinds = none := by
  rw [nodeInput?, nthNode?, ← input?, input?_eq_none absent]
  rfl

theorem tokenInput?_eq_none (absent : tree.has kinds = false) : tree.tokenInput? kinds = none := by
  rw [tokenInput?, input?_eq_none absent]
  rfl

theorem has_of_checkRole {role : String} (checked : tree.checkRole kinds role = .ok ()) :
    tree.has kinds = true := by
  unfold checkRole at checked
  split at checked
  · assumption
  · cases checked

/-! ## Required roles -/

/-- The kinds of tokens that a node of a kind must have, with their roles. -/
def requiredTokens : Kind → List (Kind × String)
  | .number => [(.digits, "digits")]
  | .field => [(.identifier, "identifier")]
  | .containsWords => [(.containsKw, "contains"), (.wordsKw, "words")]
  | .dateTime => [(.string, "date string")]
  | .sourceSide => [(.sourceKw, "source")]
  | .targetSide => [(.targetKw, "target")]
  | _ => []

/-- The kinds of nodes that a node of a kind must have, with their roles. -/
def requiredParts : Kind → List (Kind × String)
  | .fieldList | .orderList | .linkOrderList => [(.field, "field")]
  | .valueList => [(.value, "value")]
  | .logicalExpression => [(.condition, "condition")]
  | .linkExpression => [(.linkCondition, "condition")]
  | .flatSelect | .oneHopSelect | .recursiveSelect => [(.fieldList, "field list")]
  | _ => []

/-- The shape check sees to the required roles. -/
theorem has_of_checkShape (shape : tree.checkShape = .ok ()) :
    ∀ role ∈ requiredTokens tree.kind ++ requiredParts tree.kind,
      tree.has (.single role.1) = true := by
  rw [checkShape] at shape
  split at shape
  case h_3 kind_eq =>
    obtain ⟨_, contains, words⟩ := bind_eq_ok shape
    rw [kind_eq]
    simp [requiredTokens, requiredParts, has_of_checkRole contains, has_of_checkRole words]
  case h_21 => cases shape
  all_goals
    rename_i kind_eq
    rw [kind_eq]
    simp only [requiredTokens, requiredParts, List.nil_append, List.append_nil,
      List.forall_mem_cons, List.not_mem_nil, false_implies, implies_true, and_true]
  all_goals exact has_of_checkRole shape

end Tree
end WorkItemQuery
