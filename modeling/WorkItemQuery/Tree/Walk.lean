import WorkItemQuery.Tree

/-!
# Walks over trees

The tokens of a tree in the order of the text, its first and last token, the bytes it covers, its
nodes from the root down, and how deep conditions are nested in it.
-/

namespace WorkItemQuery
namespace Tree

mutual

/-- The tokens of a tree, in the order of the text. -/
def tokens : Tree → List Token
  | .leaf token => [token]
  | .node _ children => tokensAll children

/-- The tokens of a list of trees, in the order of the text. -/
def tokensAll : List Tree → List Token
  | [] => []
  | tree :: rest => tree.tokens ++ tokensAll rest

end

mutual

/-- How many tokens and nodes a tree has. -/
def size : Tree → Nat
  | .leaf _ => 1
  | .node _ children => sizeAll children + 1

/-- How many tokens and nodes a list of trees has. -/
def sizeAll : List Tree → Nat
  | [] => 0
  | tree :: rest => tree.size + sizeAll rest

end

theorem sizeAll_append (front back : List Tree) :
    sizeAll (front ++ back) = sizeAll front + sizeAll back := by
  induction front with
  | nil => simp [sizeAll]
  | cons tree rest ih => simp [sizeAll, ih, Nat.add_assoc]

/-- The trees of a list that are nodes. -/
def nodesAmong (trees : List Tree) : List Tree := trees.filterMap node?

theorem sizeAll_nodesAmong_le (trees : List Tree) :
    sizeAll (nodesAmong trees) ≤ sizeAll trees := by
  unfold nodesAmong
  induction trees with
  | nil => simp [sizeAll]
  | cons tree rest ih =>
    cases tree with
    | leaf token => simp only [List.filterMap_cons, node?, sizeAll]; omega
    | node kind children => simp only [List.filterMap_cons, node?, sizeAll]; omega

mutual

/-- The nodes of a tree by recursion: every node before its children, children from left to
right. -/
def preOrder : Tree → List Tree
  | .leaf _ => []
  | .node kind children => .node kind children :: preOrderAll children

/-- The nodes of a list of trees by recursion, in order. -/
def preOrderAll : List Tree → List Tree
  | [] => []
  | tree :: rest => tree.preOrder ++ preOrderAll rest

end

/-- Takes the nodes off a stack one by one, and puts the nodes among their children back on it. -/
def unstack : List Tree → List Tree
  | [] => []
  | .leaf _ :: rest => unstack rest
  | .node kind children :: rest =>
    .node kind children :: unstack (nodesAmong children ++ rest)
termination_by stack => sizeAll stack
decreasing_by
  · simp [sizeAll, size]
  · have := sizeAll_nodesAmong_le children
    simp only [sizeAll, sizeAll_append, size]
    omega

/-- The nodes of a tree, from the root down. -/
def descendants (tree : Tree) : List Tree := unstack [tree]

mutual

/-- The first token of a tree. -/
def firstToken? : Tree → Option Token
  | .leaf token => some token
  | .node _ children => firstTokenOf? children

/-- The first token of a list of trees. -/
def firstTokenOf? : List Tree → Option Token
  | [] => none
  | tree :: rest => tree.firstToken?.or (firstTokenOf? rest)

end

mutual

/-- The last token of a tree. -/
def lastToken? : Tree → Option Token
  | .leaf token => some token
  | .node _ children => lastTokenOf? children

/-- The last token of a list of trees. -/
def lastTokenOf? : List Tree → Option Token
  | [] => none
  | tree :: rest => (lastTokenOf? rest).or tree.lastToken?

end

/-- The node is a condition that holds an expression between parentheses. -/
def isNesting (kind : Kind) (children : List Tree) : Bool :=
  match kind with
  | .condition => children.any (·.kind == .logicalExpression)
  | .linkCondition => children.any (·.kind == .linkExpression)
  | _ => false

mutual

/-- How deep expressions are nested in the conditions of a tree. -/
def nesting : Tree → Nat
  | .leaf _ => 0
  | .node kind children => (isNesting kind children).toNat + nestingAll children

/-- How deep expressions are nested in the conditions of a list of trees. -/
def nestingAll : List Tree → Nat
  | [] => 0
  | tree :: rest => max tree.nesting (nestingAll rest)

end

/-- The bytes that a tree covers, if it has a token. -/
def span? (tree : Tree) : Option Span := do
  let first ← tree.firstToken?
  let last ← tree.lastToken?
  return first.span.cover last.span

/-- The span of a tree fits into 32 bits. -/
def fits (tree : Tree) : Bool := tree.span?.all Span.fits

end Tree
end WorkItemQuery
