import WorkItemQuery.Proofs.Tree.Alike

/-!
# The layout of a tree

A tree is laid out as its tokens in their canonical spelling, with a blank between two neighbours
except around parentheses, before commas, behind the side of a link and within a number.  The layout
does not depend on where the tokens of the tree were found.
-/

namespace WorkItemQuery
namespace Tree

/-! ## Changing tokens -/

mutual

/-- The tree with another token for each of its tokens. -/
def mapTokens (change : Token → Token) : Tree → Tree
  | .leaf token => .leaf (change token)
  | .node kind children => .node kind (mapTokensAll change children)

/-- The trees with another token for each of their tokens. -/
def mapTokensAll (change : Token → Token) : List Tree → List Tree
  | [] => []
  | tree :: rest => tree.mapTokens change :: mapTokensAll change rest

end

/-- The change leaves the kinds of tokens as they are. -/
def KeepsKind (change : Token → Token) : Prop := ∀ token, (change token).kind = token.kind

theorem kind_mapTokens {change : Token → Token} (keeps_kind : KeepsKind change) (tree : Tree) :
    (tree.mapTokens change).kind = tree.kind := by
  cases tree with
  | leaf token => exact keeps_kind token
  | node kind children => rfl

theorem isNesting_mapTokensAll {change : Token → Token} (keeps_kind : KeepsKind change)
    (kind : Kind) (children : List Tree) :
    isNesting kind (mapTokensAll change children) = isNesting kind children := by
  have any_eq : ∀ (kind : Kind) (trees : List Tree),
      ((mapTokensAll change trees).any fun child => child.kind == kind) =
        trees.any fun child => child.kind == kind := by
    intro kind trees
    induction trees with
    | nil => rfl
    | cons tree rest ih => simp [mapTokensAll, kind_mapTokens keeps_kind, ih]
  unfold isNesting
  split <;> simp only [any_eq]

mutual

theorem nesting_mapTokens {change : Token → Token} (keeps_kind : KeepsKind change) :
    (tree : Tree) → (tree.mapTokens change).nesting = tree.nesting
  | .leaf token => rfl
  | .node kind children => by
      rw [mapTokens, nesting, nesting, isNesting_mapTokensAll keeps_kind,
        nestingAll_mapTokensAll keeps_kind children]

theorem nestingAll_mapTokensAll {change : Token → Token} (keeps_kind : KeepsKind change) :
    (trees : List Tree) → nestingAll (mapTokensAll change trees) = nestingAll trees
  | [] => rfl
  | tree :: rest => by
      rw [mapTokensAll, nestingAll, nestingAll, nesting_mapTokens keeps_kind tree,
        nestingAll_mapTokensAll keeps_kind rest]

end

mutual

theorem Alike.length_tokens : {tree tree' : Tree} → Alike tree tree' →
    tree'.tokens.length = tree.tokens.length
  | .leaf _, .leaf _, .leaf _ => rfl
  | .node _ _, .node _ _, .node alike => alike.length_tokensAll

theorem AlikeAll.length_tokensAll : {trees trees' : List Tree} → AlikeAll trees trees' →
    (tokensAll trees').length = (tokensAll trees).length
  | [], [], .nil => rfl
  | _ :: _, _ :: _, .cons alike_tree alike_rest => by
      rw [tokensAll_cons, tokensAll_cons, List.length_append, List.length_append,
        alike_tree.length_tokens, alike_rest.length_tokensAll]

end

mutual

/-- Trees that are alike are the same if their tokens are the same, each changed in its way. -/
theorem Alike.mapTokens_eq {change change' : Token → Token} : {tree tree' : Tree} →
    Alike tree tree' → tree'.tokens.map change' = tree.tokens.map change →
    tree'.mapTokens change' = tree.mapTokens change
  | .leaf token, .leaf token', .leaf _, tokens_eq => by
      rw [mapTokens, mapTokens, List.head_eq_of_cons_eq tokens_eq]
  | .node kind children, .node _ children', .node alike, tokens_eq => by
      rw [mapTokens, mapTokens, AlikeAll.mapTokensAll_eq alike tokens_eq]

theorem AlikeAll.mapTokensAll_eq {change change' : Token → Token} : {trees trees' : List Tree} →
    AlikeAll trees trees' → (tokensAll trees').map change' = (tokensAll trees).map change →
    mapTokensAll change' trees' = mapTokensAll change trees
  | [], [], .nil, _ => rfl
  | tree :: rest, tree' :: rest', .cons alike_tree alike_rest, tokens_eq => by
      rw [tokensAll_cons, tokensAll_cons, List.map_append, List.map_append] at tokens_eq
      have same_length : (tree'.tokens.map change').length = (tree.tokens.map change).length := by
        rw [List.length_map, List.length_map, alike_tree.length_tokens]
      obtain ⟨tree_eq, rest_eq⟩ := List.append_inj tokens_eq same_length
      rw [mapTokensAll, mapTokensAll, alike_tree.mapTokens_eq tree_eq,
        alike_rest.mapTokensAll_eq rest_eq]

end

/-! ## Laying out -/

/-- The nodes within which nothing is spaced. -/
def tightNodes : KindSet := .ofList [.number, .sourceSide, .targetSide]

/-- What has no blank behind it. -/
def opening : KindSet := .ofList [.leftParen, .sourceSide, .targetSide]

/-- What has no blank before it. -/
def closing : KindSet := .ofList [.comma, .rightParen]

/-- What has blanks around it where its neighbours leave them. -/
def IsFree (kind : Kind) : Prop := kind ∉ opening ∧ kind ∉ closing

instance (kind : Kind) : Decidable (IsFree kind) := inferInstanceAs (Decidable (_ ∧ _))

/-- A blank stands between two neighbours in a node. -/
def isSpaced (parent left right : Kind) : Bool :=
  !(tightNodes.contains parent || opening.contains left || closing.contains right)

/-- What stands between a tree and those behind it in a node. -/
def gapBefore (parent left : Kind) : List Tree → List Char
  | [] => []
  | next :: _ => if isSpaced parent left next.kind then [' '] else []

mutual

/-- The tokens of a tree in their canonical spelling, with blanks between them. -/
def layout : Tree → List Char
  | .leaf token => token.canonicalText.toList
  | .node kind children => layoutAll kind children

/-- The layout of the children of a node. -/
def layoutAll (parent : Kind) : List Tree → List Char
  | [] => []
  | tree :: rest => tree.layout ++ (gapBefore parent tree.kind rest ++ layoutAll parent rest)

end

@[simp]
theorem layout_leaf (token : Token) : (leaf token).layout = token.canonicalText.toList := rfl

@[simp]
theorem layout_node (kind : Kind) (children : List Tree) :
    (node kind children).layout = layoutAll kind children := rfl

@[simp]
theorem layoutAll_nil (parent : Kind) : layoutAll parent [] = [] := rfl

@[simp]
theorem layoutAll_single (parent : Kind) (tree : Tree) :
    layoutAll parent [tree] = tree.layout := by
  simp [layoutAll, gapBefore]

theorem layoutAll_cons_cons (parent : Kind) (tree next : Tree) (rest : List Tree) :
    layoutAll parent (tree :: next :: rest) =
      tree.layout ++ ((if isSpaced parent tree.kind next.kind then [' '] else []) ++
        layoutAll parent (next :: rest)) := rfl

theorem isSpaced_eq_true {parent left right : Kind} (loose : parent ∉ tightNodes)
    (not_opening : left ∉ opening) (not_closing : right ∉ closing) :
    isSpaced parent left right = true := by
  rw [KindSet.mem_iff_contains, Bool.not_eq_true] at loose not_opening not_closing
  rw [isSpaced, loose, not_opening, not_closing]
  rfl

theorem layoutAll_spaced {parent : Kind} {tree next : Tree} (loose : parent ∉ tightNodes)
    (not_opening : tree.kind ∉ opening) (not_closing : next.kind ∉ closing) (rest : List Tree) :
    layoutAll parent (tree :: next :: rest) =
      tree.layout ++ ' ' :: layoutAll parent (next :: rest) := by
  rw [layoutAll_cons_cons, isSpaced_eq_true loose not_opening not_closing, if_pos rfl]
  rfl

/-- No blank stands within a tight node, behind what opens or before what closes. -/
theorem layoutAll_tight {parent : Kind} {tree next : Tree}
    (tight : parent ∈ tightNodes ∨ tree.kind ∈ opening ∨ next.kind ∈ closing)
    (rest : List Tree) :
    layoutAll parent (tree :: next :: rest) = tree.layout ++ layoutAll parent (next :: rest) := by
  have not_spaced : isSpaced parent tree.kind next.kind = false := by
    obtain mem | mem | mem := tight <;> rw [KindSet.mem_iff_contains] at mem <;>
      simp [isSpaced, mem]
  rw [layoutAll_cons_cons, not_spaced]
  rfl

/-- The layout of the last children of a node behind its others. -/
def layoutBehind (parent : Kind) : List Tree → List Char
  | [] => []
  | tree :: rest => ' ' :: layoutAll parent (tree :: rest)

/-- The trees do not begin with what closes. -/
def StartsLoose (trees : List Tree) : Prop := ∀ tree ∈ trees.head?, tree.kind ∉ closing

theorem StartsLoose.append {front back : List Tree} (front_starts : StartsLoose front)
    (back_starts : StartsLoose back) : StartsLoose (front ++ back) := by
  cases front with
  | nil => exact back_starts
  | cons tree rest => exact front_starts

/-- The layout of two lists of children, one behind the other. -/
theorem layoutAll_append {parent : Kind} {trees : List Tree} {last : Tree}
    (last_eq : trees.getLast? = some last) (next : Tree) (rest : List Tree) :
    layoutAll parent (trees ++ next :: rest) =
      layoutAll parent trees ++ ((if isSpaced parent last.kind next.kind then [' '] else []) ++
        layoutAll parent (next :: rest)) := by
  induction trees with
  | nil => cases last_eq
  | cons tree trees ih =>
      cases trees with
      | nil =>
          obtain rfl : tree = last := Option.some.inj last_eq
          rw [layoutAll_single]
          exact layoutAll_cons_cons ..
      | cons second trees =>
          have tail_eq := ih last_eq
          rw [List.cons_append] at tail_eq
          rw [List.cons_append, List.cons_append, layoutAll_cons_cons, tail_eq,
            layoutAll_cons_cons]
          simp only [List.append_assoc]

/-- What closes stands right behind what is before it. -/
theorem layoutAll_append_closing {parent : Kind} {trees : List Tree} {token : Token}
    (not_nil : trees ≠ []) (is_closing : token.kind ∈ closing) (rest : List Tree) :
    layoutAll parent (trees ++ .leaf token :: rest) =
      layoutAll parent trees ++ layoutAll parent (.leaf token :: rest) := by
  have last_eq := List.getLast?_eq_some_getLast not_nil
  have not_spaced : isSpaced parent (trees.getLast not_nil).kind token.kind = false := by
    rw [KindSet.mem_iff_contains] at is_closing
    simp [isSpaced, is_closing]
  rw [layoutAll_append last_eq, kind_leaf, not_spaced]
  rfl

theorem layoutAll_append_loose {parent : Kind} {trees rest : List Tree} {last : Tree}
    (loose : parent ∉ tightNodes) (last_eq : trees.getLast? = some last)
    (not_opening : last.kind ∉ opening) (starts : StartsLoose rest) :
    layoutAll parent (trees ++ rest) = layoutAll parent trees ++ layoutBehind parent rest := by
  cases rest with
  | nil => rw [layoutBehind, List.append_nil, List.append_nil]
  | cons next rest =>
      rw [layoutAll_append last_eq, isSpaced_eq_true loose not_opening (starts next rfl)]
      rfl

mutual

theorem layout_mapTokens {change : Token → Token} (keeps_kind : KeepsKind change)
    (keeps_text : ∀ token, (change token).canonicalText = token.canonicalText) :
    (tree : Tree) → (tree.mapTokens change).layout = tree.layout
  | .leaf token => by rw [mapTokens, layout_leaf, layout_leaf, keeps_text]
  | .node kind children => by
      rw [mapTokens, layout_node, layout_node,
        layoutAll_mapTokensAll keeps_kind keeps_text kind children]

theorem layoutAll_mapTokensAll {change : Token → Token} (keeps_kind : KeepsKind change)
    (keeps_text : ∀ token, (change token).canonicalText = token.canonicalText) (parent : Kind) :
    (trees : List Tree) → layoutAll parent (mapTokensAll change trees) = layoutAll parent trees
  | [] => rfl
  | [tree] => by
      rw [mapTokensAll, mapTokensAll, layoutAll_single, layoutAll_single,
        layout_mapTokens keeps_kind keeps_text tree]
  | tree :: next :: rest => by
      have rest_eq := layoutAll_mapTokensAll keeps_kind keeps_text parent (next :: rest)
      rw [mapTokensAll] at rest_eq
      rw [mapTokensAll, mapTokensAll, layoutAll_cons_cons, layoutAll_cons_cons,
        layout_mapTokens keeps_kind keeps_text tree, rest_eq, kind_mapTokens keeps_kind,
        kind_mapTokens keeps_kind]

end

end Tree
end WorkItemQuery
