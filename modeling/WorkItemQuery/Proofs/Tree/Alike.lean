import WorkItemQuery.Proofs.Tree.Words

/-!
# Trees that are alike

Two trees are alike if they differ in the texts and the places of their tokens only.  The tokens of
a tree may be exchanged for any others of the same kinds.
-/

namespace WorkItemQuery
namespace Tree

mutual

/-- The trees differ in the texts and the places of their tokens only. -/
inductive Alike : Tree → Tree → Prop where
  | leaf {token token' : Token} : token'.kind = token.kind → Alike (.leaf token) (.leaf token')
  | node {kind : Kind} {children children' : List Tree} : AlikeAll children children' →
      Alike (.node kind children) (.node kind children')

/-- The trees of two lists are alike, one by one. -/
inductive AlikeAll : List Tree → List Tree → Prop where
  | nil : AlikeAll [] []
  | cons {tree tree' : Tree} {trees trees' : List Tree} : Alike tree tree' →
      AlikeAll trees trees' → AlikeAll (tree :: trees) (tree' :: trees')

end

/-- The kinds of tokens, in order. -/
def kindsOf (tokens : List Token) : List Kind := tokens.map fun token => token.kind

@[simp]
theorem kindsOf_nil : kindsOf [] = [] := rfl

@[simp]
theorem kindsOf_cons (token : Token) (tokens : List Token) :
    kindsOf (token :: tokens) = token.kind :: kindsOf tokens := rfl

@[simp]
theorem kindsOf_append (front back : List Token) :
    kindsOf (front ++ back) = kindsOf front ++ kindsOf back := List.map_append

theorem Alike.kind_eq {tree tree' : Tree} (alike : Alike tree tree') : tree'.kind = tree.kind := by
  cases alike with
  | leaf kind_eq => exact kind_eq
  | node => rfl

theorem AlikeAll.exists_of_append {front back trees : List Tree}
    (alike : AlikeAll (front ++ back) trees) :
    ∃ front' back', trees = front' ++ back' ∧ AlikeAll front front' ∧ AlikeAll back back' := by
  induction front generalizing trees with
  | nil => exact ⟨[], trees, rfl, .nil, alike⟩
  | cons tree front ih =>
      cases alike with
      | cons alike_tree alike_rest =>
          obtain ⟨front', back', rfl, alike_front, alike_back⟩ := ih alike_rest
          exact ⟨_ :: front', back', rfl, .cons alike_tree alike_front, alike_back⟩

theorem AlikeAll.exists_of_single {tree : Tree} {trees : List Tree}
    (alike : AlikeAll [tree] trees) : ∃ tree', trees = [tree'] ∧ Alike tree tree' := by
  obtain _ | ⟨alike_tree, _ | _⟩ := alike
  exact ⟨_, rfl, alike_tree⟩

mutual

/-- The tokens of a tree can be exchanged for others of the same kinds. -/
theorem exists_alike : (tree : Tree) → {tokens : List Token} →
    kindsOf tokens = kindsOf tree.tokens → ∃ tree', Alike tree tree' ∧ tree'.tokens = tokens
  | .leaf token, tokens, kinds_eq => by
      obtain ⟨token', rfl⟩ : ∃ token', tokens = [token'] := by
        apply List.length_eq_one_iff.1
        simpa [kindsOf] using congrArg List.length kinds_eq
      exact ⟨.leaf token', .leaf (List.head_eq_of_cons_eq kinds_eq), rfl⟩
  | .node kind children, tokens, kinds_eq => by
      obtain ⟨children', alike, rfl⟩ := exists_alikeAll children kinds_eq
      exact ⟨.node kind children', .node alike, rfl⟩

theorem exists_alikeAll : (trees : List Tree) → {tokens : List Token} →
    kindsOf tokens = kindsOf (tokensAll trees) →
    ∃ trees', AlikeAll trees trees' ∧ tokensAll trees' = tokens
  | [], tokens, kinds_eq => by
      obtain rfl : tokens = [] := List.map_eq_nil_iff.1 kinds_eq
      exact ⟨[], .nil, rfl⟩
  | tree :: rest, tokens, kinds_eq => by
      rw [tokensAll_cons, kindsOf_append] at kinds_eq
      obtain ⟨front, back, rfl, front_eq, back_eq⟩ := List.map_eq_append_iff.1 kinds_eq
      obtain ⟨tree', alike_tree, rfl⟩ := exists_alike tree front_eq
      obtain ⟨rest', alike_rest, rfl⟩ := exists_alikeAll rest back_eq
      exact ⟨tree' :: rest', .cons alike_tree alike_rest, rfl⟩

end

end Tree
end WorkItemQuery
