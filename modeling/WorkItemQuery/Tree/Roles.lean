import WorkItemQuery.Tree.Shape
import WorkItemQuery.Tree.Walk

/-!
# Roles of children

A role of a node is played by the first child of a kind.  A role that the shape check requires can
still be empty in one case: when its child is a token that carries the kind of a node.
-/

namespace WorkItemQuery

/-- A node has no child for a role that its kind requires. -/
structure BrokenRole where
  /-- The kind of the node. -/
  kind : Kind
  /-- The role. -/
  role : String
deriving DecidableEq, Repr

/-- The failure in words. -/
def BrokenRole.message (broken : BrokenRole) : String :=
  "broken shape invariant: `" ++ broken.kind.name ++ "` without " ++ broken.role ++
    " (checked at construction)"

namespace Tree

/-- What plays a role of a node, which must be there. -/
def require {α : Type} (tree : Tree) (player : Option α) (role : String) : Except BrokenRole α :=
  match player with
  | some found => .ok found
  | none => .error ⟨tree.kind, role⟩

/-- The token that plays a role, which must be there. -/
def requireToken (tree : Tree) (kind : Kind) (role : String) : Except BrokenRole Token :=
  tree.require (tree.tokenInput? (.single kind)) role

/-- The first child of a kind, if it is a node. -/
def part? (tree : Tree) (kind : Kind) : Option Tree := tree.nodeInput? (.single kind)

/-- The node that plays a role, which must be there. -/
def requirePart (tree : Tree) (kind : Kind) (role : String) : Except BrokenRole Tree :=
  tree.require (tree.part? kind) role

theorem size_lt_of_mem_children {tree child : Tree} (h : child ∈ tree.children) :
    child.size < tree.size := by
  cases tree with
  | leaf token => simp at h
  | node kind children =>
    rw [children_node] at h
    simp only [size]
    induction children with
    | nil => simp at h
    | cons first rest ih =>
      simp only [sizeAll]
      rcases List.mem_cons.1 h with rfl | h
      · omega
      · have := ih h
        omega

theorem mem_children_of_nthInput? {tree child : Tree} {kinds : KindSet} {occurrence : Nat}
    (h : tree.nthInput? kinds occurrence = some child) : child ∈ tree.children := by
  cases occurrence with
  | zero => simp [nthInput?] at h
  | succ before => exact (List.mem_filter.1 (List.mem_of_getElem? h)).1

theorem mem_children_of_part? {tree child : Tree} {kind : Kind}
    (h : tree.part? kind = some child) : child ∈ tree.children := by
  simp only [part?, nodeInput?, nthNode?, Option.bind_eq_some_iff] at h
  obtain ⟨found, hfound, hnode⟩ := h
  cases found with
  | leaf token => simp [node?] at hnode
  | node kind children =>
    simp only [node?, Option.some.injEq] at hnode
    exact hnode ▸ mem_children_of_nthInput? hfound

theorem size_part?_lt {tree child : Tree} {kind : Kind} (h : tree.part? kind = some child) :
    child.size < tree.size :=
  size_lt_of_mem_children (mem_children_of_part? h)

/-- The nodes of a chain: the node itself, then those of the first child of the chain's kind. -/
def links (kind : Kind) (tree : Tree) : List Tree :=
  match _next : tree.part? kind with
  | none => [tree]
  | some rest => tree :: links kind rest
termination_by tree.size
decreasing_by exact size_part?_lt _next

end Tree
end WorkItemQuery
