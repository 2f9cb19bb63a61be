import WorkItemQuery.Token

/-!
# Trees

A tree is a token, or a node with a kind and its children in the order of the text.  A child is
looked up by its kind: the first, or a later one, of those whose kind lies in a set.
-/

namespace WorkItemQuery

/-- A token, or a node over trees. -/
inductive Tree where
  /-- A token. -/
  | leaf (token : Token)
  /-- A node with its children in order. -/
  | node (kind : Kind) (children : List Tree)
deriving Repr

namespace Tree

mutual

/-- Decides whether two trees are equal. -/
def decEq : (left right : Tree) → Decidable (left = right)
  | .leaf left, .leaf right =>
    if h : left = right then isTrue (h ▸ rfl) else isFalse fun eq => h (Tree.leaf.inj eq)
  | .node left ls, .node right rs =>
    if h : left = right then
      match decEqAll ls rs with
      | isTrue hs => isTrue (h ▸ hs ▸ rfl)
      | isFalse hs => isFalse fun eq => hs (Tree.node.inj eq).2
    else isFalse fun eq => h (Tree.node.inj eq).1
  | .leaf _, .node _ _ => isFalse nofun
  | .node _ _, .leaf _ => isFalse nofun

/-- Decides whether two lists of trees are equal. -/
def decEqAll : (left right : List Tree) → Decidable (left = right)
  | [], [] => isTrue rfl
  | l :: ls, r :: rs =>
    match decEq l r, decEqAll ls rs with
    | isTrue h, isTrue hs => isTrue (h ▸ hs ▸ rfl)
    | isFalse h, _ => isFalse fun eq => h (List.cons.inj eq).1
    | _, isFalse hs => isFalse fun eq => hs (List.cons.inj eq).2
  | [], _ :: _ => isFalse nofun
  | _ :: _, [] => isFalse nofun

end

instance : DecidableEq Tree := decEq

/-- The kind of the token or node. -/
def kind : Tree → Kind
  | .leaf token => token.kind
  | .node kind _ => kind

/-- The children of a node; a token has none. -/
def children : Tree → List Tree
  | .leaf _ => []
  | .node _ children => children

/-- The token of a leaf. -/
def token? : Tree → Option Token
  | .leaf token => some token
  | .node _ _ => none

/-- The tree itself, if it is a node. -/
def node? : Tree → Option Tree
  | .leaf _ => none
  | tree@(.node _ _) => some tree

@[simp] theorem kind_leaf (token : Token) : (leaf token).kind = token.kind := rfl

@[simp] theorem kind_node (kind : Kind) (children : List Tree) : (node kind children).kind = kind :=
  rfl

@[simp] theorem children_leaf (token : Token) : (leaf token).children = [] := rfl

@[simp] theorem children_node (kind : Kind) (children : List Tree) :
    (node kind children).children = children := rfl

/-- The children whose kind lies in a set, in order. -/
def inputs (tree : Tree) (kinds : KindSet) : List Tree :=
  tree.children.filter fun child => kinds.contains child.kind

/-- The child that comes at a place, counted from one, among those whose kind lies in a set. -/
def nthInput? (tree : Tree) (kinds : KindSet) (occurrence : Nat) : Option Tree :=
  match occurrence with
  | 0 => none
  | before + 1 => (tree.inputs kinds)[before]?

/-- The first child whose kind lies in a set. -/
def input? (tree : Tree) (kinds : KindSet) : Option Tree := tree.nthInput? kinds 1

/-- The first child whose kind lies in a set, if it is a token. -/
def tokenInput? (tree : Tree) (kinds : KindSet) : Option Token :=
  (tree.input? kinds).bind token?

/-- The child at a place among those whose kind lies in a set, if it is a node. -/
def nthNode? (tree : Tree) (kinds : KindSet) (occurrence : Nat) : Option Tree :=
  (tree.nthInput? kinds occurrence).bind node?

/-- The first child whose kind lies in a set, if it is a node. -/
def nodeInput? (tree : Tree) (kinds : KindSet) : Option Tree := tree.nthNode? kinds 1

/-- Some child has a kind in the set. -/
def has (tree : Tree) (kinds : KindSet) : Bool := (tree.input? kinds).isSome

/-- The places among all children, counted from zero, of those whose kind lies in a set. -/
def inputPlaces (tree : Tree) (kinds : KindSet) : List Nat :=
  (tree.children.zipIdx.filter fun child => kinds.contains child.1.kind).map (·.2)

/-- The place among all children, counted from zero, of the child that `nthInput?` finds. -/
def nthPlace? (tree : Tree) (kinds : KindSet) (occurrence : Nat) : Option Nat :=
  match occurrence with
  | 0 => none
  | before + 1 => (tree.inputPlaces kinds)[before]?

theorem input?_eq_head? (tree : Tree) (kinds : KindSet) :
    tree.input? kinds = (tree.inputs kinds).head? := by
  simp [input?, nthInput?, List.head?_eq_getElem?]

theorem has_iff {tree : Tree} {kinds : KindSet} :
    tree.has kinds = true ↔ ∃ child ∈ tree.children, child.kind ∈ kinds := by
  simp only [has, input?_eq_head?, inputs, KindSet.mem_iff_contains]
  cases h : (tree.children.filter fun child => kinds.contains child.kind) with
  | nil =>
    have := List.filter_eq_nil_iff.1 h
    simpa using this
  | cons first rest =>
    have : first ∈ tree.children.filter fun child => kinds.contains child.kind := by simp [h]
    simpa using ⟨first, List.mem_filter.1 this⟩

end Tree
end WorkItemQuery
