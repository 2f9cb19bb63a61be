import Mathlib.Data.List.Forall2
import WorkItemQuery.Proofs.Grammar.Nodes
import WorkItemQuery.Proofs.Tree.Alike

/-!
# Shapes of trees that are alike

The shape of a node is checked by looking at the kinds of its children, and so trees that are alike
pass the same checks.
-/

namespace WorkItemQuery
namespace Tree

theorem AlikeAll.append {front front' back back' : List Tree} (front_alike : AlikeAll front front')
    (back_alike : AlikeAll back back') : AlikeAll (front ++ back) (front' ++ back') := by
  induction front generalizing front' with
  | nil =>
      cases front_alike
      exact back_alike
  | cons tree front ih =>
      obtain _ | ⟨tree_alike, rest_alike⟩ := front_alike
      exact .cons tree_alike (ih rest_alike)

theorem AlikeAll.forall₂ {trees trees' : List Tree} (alike : AlikeAll trees trees') :
    List.Forall₂ Alike trees trees' := by
  induction trees generalizing trees' with
  | nil =>
      cases alike
      exact .nil
  | cons tree rest ih =>
      obtain _ | ⟨tree_alike, rest_alike⟩ := alike
      exact .cons tree_alike (ih rest_alike)

theorem Alike.node?_isSome {tree tree' : Tree} (alike : Alike tree tree') :
    tree'.node?.isSome = tree.node?.isSome := by
  cases alike <;> rfl

section

variable {children children' : List Tree} (alike : AlikeAll children children') (kind : Kind)
  (kinds : KindSet)

include alike

theorem AlikeAll.kinds_eq : children'.map Tree.kind = children.map Tree.kind := by
  have all_alike := alike.forall₂
  clear alike
  induction all_alike with
  | nil => rfl
  | cons tree_alike _ ih => rw [List.map_cons, List.map_cons, tree_alike.kind_eq, ih]

theorem AlikeAll.has_eq : (node kind children').has kinds = (node kind children).has kinds := by
  have any_eq := congrArg (List.any · kinds.contains) alike.kinds_eq
  simpa [has_node, Function.comp_def] using any_eq

/-- The inputs of nodes over trees that are alike are alike. -/
theorem AlikeAll.inputs :
    List.Forall₂ Alike ((node kind children).inputs kinds) ((node kind children').inputs kinds) :=
  List.rel_filter (fun _ _ tree_alike => by dsimp only; rw [tree_alike.kind_eq]) alike.forall₂

theorem AlikeAll.nthInput? (occurrence : Nat) :
    Option.Rel Alike ((node kind children).nthInput? kinds occurrence)
      ((node kind children').nthInput? kinds occurrence) := by
  cases occurrence with
  | zero => exact .none
  | succ before =>
      have get_rel : ∀ {trees trees' : List Tree}, List.Forall₂ Alike trees trees' →
          Option.Rel Alike trees[before]? trees'[before]? := by
        intro trees trees' all_alike
        induction all_alike generalizing before with
        | nil => exact .none
        | cons tree_alike _ ih =>
            cases before with
            | zero => exact .some tree_alike
            | succ before => exact ih before
      exact get_rel (alike.inputs kind kinds)

theorem AlikeAll.input? : Option.Rel Alike ((node kind children).input? kinds)
    ((node kind children').input? kinds) := alike.nthInput? kind kinds 1

theorem AlikeAll.offsetNumber?_isNone :
    (node kind children').offsetNumber?.isNone = (node kind children).offsetNumber?.isNone := by
  have nthNode_eq : ∀ kinds occurrence, ((node kind children').nthNode? kinds occurrence).isNone =
      ((node kind children).nthNode? kinds occurrence).isNone := by
    intro kinds occurrence
    have found_alike := alike.nthInput? kind kinds occurrence
    unfold nthNode?
    generalize (node kind children).nthInput? kinds occurrence = found,
      (node kind children').nthInput? kinds occurrence = found' at found_alike ⊢
    cases found_alike with
    | none => rfl
    | some tree_alike =>
        rw [Option.bind_some, Option.bind_some, ← Option.not_isSome, ← Option.not_isSome,
          tree_alike.node?_isSome]
  have value_eq : ((node kind children').input? .valueKinds).any (·.kind == .number) =
      ((node kind children).input? .valueKinds).any (·.kind == .number) := by
    have found_alike := alike.input? kind .valueKinds
    generalize (node kind children).input? .valueKinds = found,
      (node kind children').input? .valueKinds = found' at found_alike ⊢
    cases found_alike with
    | none => rfl
    | some tree_alike => rw [Option.any_some, Option.any_some, tree_alike.kind_eq]
  have sign_alike := alike.input? kind .plusMinus
  unfold offsetNumber?
  rw [value_eq]
  generalize (node kind children).input? .plusMinus = sign,
    (node kind children').input? .plusMinus = sign' at sign_alike ⊢
  cases sign_alike with
  | none => rfl
  | some => exact nthNode_eq ..

/-- The shape check looks at the kinds of the children only. -/
theorem AlikeAll.checkShape_eq :
    (node kind children').checkShape = (node kind children).checkShape := by
  unfold checkShape checkRole checkCondition
  simp only [kind_node, alike.has_eq kind, alike.offsetNumber?_isNone kind]

end
end Tree

end WorkItemQuery
