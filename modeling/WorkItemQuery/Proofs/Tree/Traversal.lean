import WorkItemQuery.Proofs.Tree.Spans

/-!
# Walking over a tree

The walk with a stack visits step by step what the recursion lists, and its stack is empty behind
the last node.  A node stands at a place, which tells the children to go down to from the root; the
places of the nodes that are visited are all those where nodes stand, in lexicographic order.  The
searches for the first and the last token pass over nodes without tokens.
-/

namespace WorkItemQuery
namespace Tree

/-! ## Steps -/

/-- Takes the node on top off the stack, and puts the nodes among its children there. -/
def visit : List Tree → Option (Tree × List Tree)
  | [] => none
  | tree :: rest => some (tree, nodesAmong tree.children ++ rest)

/-- What is visited in a number of steps, and the stack behind them. -/
def visits : Nat → List Tree → List Tree × List Tree
  | 0, stack => ([], stack)
  | steps + 1, stack =>
    match visit stack with
    | none => ([], stack)
    | some (tree, stack) =>
      let (later, stack) := visits steps stack
      (tree :: later, stack)

/-- The stack that the walk over a tree begins with: the tree itself, if it is a node. -/
def initialStack (tree : Tree) : List Tree := nodesAmong [tree]

/-- There are only nodes on the stack. -/
def AllNodes (stack : List Tree) : Prop := ∀ tree ∈ stack, tree.node? = some tree

theorem allNodes_nodesAmong (trees : List Tree) : AllNodes (nodesAmong trees) := by
  intro tree mem
  obtain ⟨other, -, node_eq⟩ := List.mem_filterMap.1 mem
  cases other with
  | leaf token => cases node_eq
  | node kind children =>
      cases node_eq
      rfl

section

variable {stack rest : List Tree} {tree : Tree}

/-- A step visits the first of the nodes that are left, and leaves the others. -/
theorem step_visit (nodes : AllNodes stack) (visit_eq : visit stack = some (tree, rest)) :
    AllNodes rest ∧ preOrderAll stack = tree :: preOrderAll rest := by
  cases stack with
  | nil => cases visit_eq
  | cons top below =>
      cases visit_eq
      obtain ⟨top_node, below_nodes⟩ := List.forall_mem_cons.1 nodes
      refine ⟨List.forall_mem_append.2 ⟨allNodes_nodesAmong _, below_nodes⟩, ?_⟩
      cases tree with
      | leaf token => cases top_node
      | node kind children =>
          -- The children go on top, which is where the recursion turns to next.
          rw [preOrderAll_append, preOrderAll_nodesAmong, preOrderAll_cons, preOrder_node]
          rfl

theorem preOrderAll_eq_nil_iff (nodes : AllNodes stack) : preOrderAll stack = [] ↔ stack = [] := by
  cases visit_eq : visit stack with
  | none =>
      cases stack with
      | nil => exact iff_of_true rfl rfl
      | cons => cases visit_eq
  | some answer =>
      rw [(step_visit nodes visit_eq).2]
      refine iff_of_false nofun ?_
      rintro rfl
      cases visit_eq

/-- A number of steps visits as many of the nodes that are left, and leaves the others. -/
theorem run_visits (steps : Nat) (nodes : AllNodes stack) :
    AllNodes (visits steps stack).2 ∧ (visits steps stack).1 = (preOrderAll stack).take steps ∧
      preOrderAll (visits steps stack).2 = (preOrderAll stack).drop steps := by
  induction steps generalizing stack with
  | zero => exact ⟨nodes, rfl, rfl⟩
  | succ steps ih =>
      rw [visits]
      cases visit_eq : visit stack with
      | none =>
          obtain rfl : stack = [] := by
            cases stack with
            | nil => rfl
            | cons => cases visit_eq
          exact ⟨nodes, rfl, rfl⟩
      | some answer =>
          obtain ⟨tree, rest⟩ := answer
          obtain ⟨rest_nodes, stack_eq⟩ := step_visit nodes visit_eq
          obtain ⟨left_nodes, visited_eq, left_eq⟩ := ih rest_nodes
          rw [stack_eq]
          exact ⟨left_nodes, congrArg (tree :: ·) visited_eq, left_eq⟩

end

theorem allNodes_initialStack (tree : Tree) : AllNodes tree.initialStack :=
  allNodes_nodesAmong [tree]

theorem preOrderAll_initialStack (tree : Tree) : preOrderAll tree.initialStack = tree.preOrder := by
  rw [initialStack, preOrderAll_nodesAmong, preOrderAll_cons, preOrderAll_nil, List.append_nil]

/-! ## Places -/

/-- The node at a place: the place tells which child to go down to, counted from zero, again and
again. -/
def nodeAt? (tree : Tree) : List Nat → Option Tree
  | [] => tree.node?
  | index :: place => tree.children[index]?.bind fun child => child.nodeAt? place

mutual

/-- The places of the nodes of a tree. -/
def places : Tree → List (List Nat)
  | .leaf _ => []
  | .node _ children => [] :: placesFrom 0 children

/-- The places of the nodes of a list of trees, which are the children from one on. -/
def placesFrom : Nat → List Tree → List (List Nat)
  | _, [] => []
  | index, tree :: rest => tree.places.map (index :: ·) ++ placesFrom (index + 1) rest

end

theorem mem_placesFrom_iff {place : List Nat} {index : Nat} {trees : List Tree} :
    place ∈ placesFrom index trees ↔ ∃ behind inner tree, place = (index + behind) :: inner ∧
      trees[behind]? = some tree ∧ inner ∈ tree.places := by
  induction trees generalizing index with
  | nil => simp [placesFrom]
  | cons first rest ih =>
      rw [placesFrom, List.mem_append, List.mem_map, ih]
      constructor
      · rintro (⟨inner, mem, rfl⟩ | ⟨behind, inner, tree, rfl, tree_eq, mem⟩)
        · exact ⟨0, inner, first, rfl, rfl, mem⟩
        · exact ⟨behind + 1, inner, tree, by rw [Nat.add_assoc, Nat.add_comm 1], tree_eq, mem⟩
      · rintro ⟨_ | behind, inner, tree, rfl, tree_eq, mem⟩
        · cases tree_eq
          exact .inl ⟨inner, mem, rfl⟩
        · exact .inr ⟨behind, inner, tree, by rw [Nat.add_assoc, Nat.add_comm 1], tree_eq, mem⟩

/-- The places are those where nodes stand. -/
theorem mem_places_iff {place : List Nat} {tree : Tree} :
    place ∈ tree.places ↔ (tree.nodeAt? place).isSome := by
  induction place generalizing tree with
  | nil => cases tree <;> simp [places, nodeAt?, node?]
  | cons index place ih =>
      cases tree with
      | leaf token => simp [places, nodeAt?]
      | node kind children =>
          have listed : index :: place ∈ (node kind children).places ↔
              ∃ child, children[index]? = some child ∧ place ∈ child.places := by
            simp [places, mem_placesFrom_iff, and_assoc]
          rw [listed, nodeAt?, children_node]
          cases children[index]? with
          | none => simp
          | some child => simp [ih]

mutual

/-- A place comes before the places under it, and the places under a child before those under a
child behind it. -/
theorem pairwise_places : (tree : Tree) → tree.places.Pairwise (· < ·)
  | .leaf _ => .nil
  | .node _ children => by
      refine List.pairwise_cons.2 ⟨fun place mem => ?_, pairwise_placesFrom 0 children⟩
      obtain ⟨behind, inner, tree, rfl, -⟩ := mem_placesFrom_iff.1 mem
      exact List.nil_lt_cons ..

theorem pairwise_placesFrom (index : Nat) :
    (trees : List Tree) → (placesFrom index trees).Pairwise (· < ·)
  | [] => .nil
  | tree :: rest => by
      refine List.pairwise_append.2 ⟨?_, pairwise_placesFrom (index + 1) rest, ?_⟩
      · refine List.pairwise_map.2 ((pairwise_places tree).imp fun less => ?_)
        exact List.cons_lt_cons_iff.2 (.inr ⟨rfl, less⟩)
      · intro left left_mem right right_mem
        obtain ⟨inner, -, rfl⟩ := List.mem_map.1 left_mem
        obtain ⟨behind, inner', tree', rfl, -⟩ := mem_placesFrom_iff.1 right_mem
        exact List.cons_lt_cons_iff.2 (.inl (by omega))

end

mutual

/-- The nodes at the places, one by one, are those that the recursion lists. -/
theorem map_places : (tree : Tree) → tree.places.map tree.nodeAt? = tree.preOrder.map some
  | .leaf _ => rfl
  | .node kind children => by
      rw [places, preOrder_node, List.map_cons, List.map_cons]
      exact congrArg _ (map_placesFrom kind [] children)

/-- The places below a node whose first children have been listed already. -/
theorem map_placesFrom (kind : Kind) (front : List Tree) : (trees : List Tree) →
    (placesFrom front.length trees).map (node kind (front ++ trees)).nodeAt? =
      (preOrderAll trees).map some
  | [] => rfl
  | tree :: rest => by
      have below : ∀ place, (node kind (front ++ tree :: rest)).nodeAt? (front.length :: place) =
          tree.nodeAt? place := by
        intro place
        simp [nodeAt?]
      have behind := map_placesFrom kind (front ++ [tree]) rest
      -- With one more child in front, the places behind it are counted from the next index on.
      rw [List.length_append, List.length_singleton, List.append_assoc,
        List.singleton_append] at behind
      rw [placesFrom, List.map_append, List.map_map, behind, preOrderAll_cons, List.map_append,
        ← map_places tree]
      congr 2
      exact funext below

end

/-! ## Both walks -/

/-- The walks over a tree agree: the walk with the stack with the recursion, and the search for the
tokens at both ends with the list of all tokens. -/
structure WalksAgree (tree : Tree) : Prop where
  /-- The walk with the stack visits what the recursion lists. -/
  descendants_eq : tree.descendants = tree.preOrder
  /-- Each step visits the next of them. -/
  visited_eq : ∀ steps, (visits steps tree.initialStack).1 = tree.descendants.take steps
  /-- The stack is empty as soon as all of them have been visited. -/
  ends_iff : ∀ steps, (visits steps tree.initialStack).2 = [] ↔ tree.descendants.length ≤ steps
  /-- The node at each place is visited once, before those under it, and children from left to
  right: that is the lexicographic order of the places. -/
  in_order : ∃ places : List (List Nat), places.Pairwise (· < ·) ∧
    (∀ place, place ∈ places ↔ (tree.nodeAt? place).isSome) ∧
      tree.descendants.map some = places.map tree.nodeAt?
  /-- The first token is the first of all. -/
  first_eq : tree.firstToken? = tree.tokens.head?
  /-- The last token is the last of all. -/
  last_eq : tree.lastToken? = tree.tokens.getLast?
  /-- Without tokens there is no first one. -/
  first_eq_none_iff : tree.firstToken? = none ↔ tree.tokens = []
  /-- Without tokens there is no last one. -/
  last_eq_none_iff : tree.lastToken? = none ↔ tree.tokens = []
  /-- Without tokens there is no span. -/
  span_eq_none_iff : tree.span? = none ↔ tree.tokens = []
  /-- Otherwise the span is the least that holds the first token and the last one. -/
  span_covers : ∀ first last, tree.firstToken? = some first → tree.lastToken? = some last →
    ∃ span, tree.span? = some span ∧ span.start = min first.span.start last.span.start ∧
      span.stop = max first.span.stop last.span.stop

theorem span?_eq_none_iff (tree : Tree) : tree.span? = none ↔ tree.tokens = [] := by
  rw [span?, firstToken?_eq, lastToken?_eq]
  cases tokens_eq : tree.tokens with
  | nil => simp
  | cons first rest => simp [List.getLast?_cons]

/-- The walks over every tree agree, also where nodes are without tokens. -/
theorem walks_agree (tree : Tree) : tree.WalksAgree where
  descendants_eq := descendants_eq_preOrder tree
  visited_eq steps := by
    rw [(run_visits steps (allNodes_initialStack tree)).2.1, preOrderAll_initialStack,
      descendants_eq_preOrder]
  ends_iff steps := by
    obtain ⟨left_nodes, -, left_eq⟩ := run_visits steps (allNodes_initialStack tree)
    rw [← preOrderAll_eq_nil_iff left_nodes, left_eq, preOrderAll_initialStack,
      List.drop_eq_nil_iff, descendants_eq_preOrder]
  in_order := by
    refine ⟨tree.places, pairwise_places tree, fun _ => mem_places_iff, ?_⟩
    rw [descendants_eq_preOrder, map_places]
  first_eq := firstToken?_eq tree
  last_eq := lastToken?_eq tree
  first_eq_none_iff := by rw [firstToken?_eq, List.head?_eq_none_iff]
  last_eq_none_iff := by rw [lastToken?_eq, List.getLast?_eq_none_iff]
  span_eq_none_iff := span?_eq_none_iff tree
  span_covers first last first_eq last_eq := by
    refine ⟨first.span.cover last.span, ?_, rfl, rfl⟩
    rw [span?, first_eq, last_eq]
    rfl

end Tree
end WorkItemQuery
