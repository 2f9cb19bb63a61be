import WorkItemQuery.Tree.Roles

/-!
# Looking up children

The child that plays a role is the first of its kind.  Children of other kinds before it do not
matter, and a chain is followed from each node to the next.
-/

namespace WorkItemQuery
namespace Tree

/-- The first tree of a list whose kind lies in a set. -/
def firstOf (kinds : KindSet) (trees : List Tree) : Option Tree :=
  trees.find? fun tree => kinds.contains tree.kind

section

variable {kinds : KindSet} {tree : Tree} {token : Token} {rest : List Tree}

@[simp]
theorem firstOf_nil (kinds : KindSet) : firstOf kinds [] = none := rfl

theorem firstOf_cons_of_mem (mem : tree.kind ∈ kinds) : firstOf kinds (tree :: rest) = some tree :=
  List.find?_cons_of_pos mem

theorem firstOf_cons_of_notMem (notMem : tree.kind ∉ kinds) :
    firstOf kinds (tree :: rest) = firstOf kinds rest :=
  List.find?_cons_of_neg notMem

theorem firstOf_leaf_of_mem (mem : token.kind ∈ kinds) :
    firstOf kinds (.leaf token :: rest) = some (.leaf token) :=
  List.find?_cons_of_pos mem

theorem firstOf_leaf_of_notMem (notMem : token.kind ∉ kinds) :
    firstOf kinds (.leaf token :: rest) = firstOf kinds rest :=
  List.find?_cons_of_neg notMem

theorem firstOf_append (kinds : KindSet) (front back : List Tree) :
    firstOf kinds (front ++ back) = (firstOf kinds front).or (firstOf kinds back) :=
  List.find?_append

theorem firstOf_eq_none {trees : List Tree} (none_mem : ∀ tree ∈ trees, tree.kind ∉ kinds) :
    firstOf kinds trees = none :=
  List.find?_eq_none.2 none_mem

theorem firstOf_append_of_none {front : List Tree} (none_mem : ∀ tree ∈ front, tree.kind ∉ kinds)
    (back : List Tree) : firstOf kinds (front ++ back) = firstOf kinds back := by
  rw [firstOf_append, firstOf_eq_none none_mem, Option.none_or]

end

theorem input?_node (kind : Kind) (children : List Tree) (kinds : KindSet) :
    (node kind children).input? kinds = firstOf kinds children := by
  rw [input?_eq_head?, inputs, List.head?_filter]
  rfl

theorem tokenInput?_node (kind : Kind) (children : List Tree) (kinds : KindSet) :
    (node kind children).tokenInput? kinds = (firstOf kinds children).bind token? := by
  rw [tokenInput?, input?_node]

theorem nodeInput?_node (kind : Kind) (children : List Tree) (kinds : KindSet) :
    (node kind children).nodeInput? kinds = (firstOf kinds children).bind node? :=
  congrArg (·.bind node?) (input?_node kind children kinds)

theorem part?_node (kind : Kind) (children : List Tree) (role : Kind) :
    (node kind children).part? role = (firstOf (.single role) children).bind node? :=
  nodeInput?_node kind children (.single role)

/-- Children of other kinds play no role before the rest of the children. -/
theorem part?_append {front : List Tree} {role : Kind} (others : ∀ tree ∈ front, tree.kind ≠ role)
    (kind : Kind) (rest : List Tree) :
    (node kind (front ++ rest)).part? role = (node kind rest).part? role := by
  rw [part?_node, part?_node, firstOf_append_of_none fun tree mem => ?_]
  simpa using others tree mem

theorem tokenInput?_append {front : List Tree} {role : Kind}
    (others : ∀ tree ∈ front, tree.kind ≠ role) (kind : Kind) (rest : List Tree) :
    (node kind (front ++ rest)).tokenInput? (.single role) =
      (node kind rest).tokenInput? (.single role) := by
  rw [tokenInput?_node, tokenInput?_node, firstOf_append_of_none fun tree mem => ?_]
  simpa using others tree mem

theorem part?_of_cons {child : Tree} {role : Kind} (is_node : child.node? = some child)
    (child_kind : child.kind = role) (kind : Kind) (rest : List Tree) :
    (node kind (child :: rest)).part? role = some child := by
  rw [part?_node, firstOf_cons_of_mem (KindSet.mem_single.2 child_kind)]
  exact is_node

/-- A child that is a node plays its role, wherever it stands behind children of other kinds. -/
theorem part?_of_append {front : List Tree} {child : Tree} {role : Kind}
    (others : ∀ tree ∈ front, tree.kind ≠ role) (is_node : child.node? = some child)
    (child_kind : child.kind = role) (kind : Kind) (rest : List Tree) :
    (node kind (front ++ child :: rest)).part? role = some child :=
  (part?_append others kind (child :: rest)).trans (part?_of_cons is_node child_kind kind rest)

theorem part?_eq_none {children : List Tree} {role : Kind}
    (others : ∀ child ∈ children, child.kind ≠ role) (kind : Kind) :
    (node kind children).part? role = none := by
  rw [part?_node, firstOf_eq_none fun child mem => ?_]
  · rfl
  · simpa using others child mem

theorem requirePart_of_some {tree child : Tree} {role : Kind} (found : tree.part? role = some child)
    (name : String) : tree.requirePart role name = .ok child := by
  rw [requirePart, found]
  rfl

theorem requireToken_of_some {tree : Tree} {token : Token} {role : Kind}
    (found : tree.tokenInput? (.single role) = some token) (name : String) :
    tree.requireToken role name = .ok token := by
  rw [requireToken, found]
  rfl

/-! ## Chains -/

theorem links_of_last {kind : Kind} {tree : Tree} (last : tree.part? kind = none) :
    tree.links kind = [tree] := by
  rw [links]
  split
  · rfl
  · rename_i rest found
    rw [last] at found
    cases found

theorem links_of_next {kind : Kind} {tree rest : Tree} (next : tree.part? kind = some rest) :
    tree.links kind = tree :: rest.links kind := by
  rw [links]
  split
  · rename_i found
    rw [next] at found
    cases found
  · rename_i other found
    rw [next] at found
    cases found
    rfl

end Tree
end WorkItemQuery
