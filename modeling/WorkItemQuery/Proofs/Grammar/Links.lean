import WorkItemQuery.Proofs.Grammar.Nodes
import WorkItemQuery.Proofs.Tree.Lookup
import WorkItemQuery.Select.Reading

/-!
# Chains as lists

The elements of a list are linked from the last to the first, and a chain is followed from the first
link to the last.  The links that are met are those of the elements, in their order, and what a link
says is said by its own element: the next link, which stands last among its children, plays no role
but that of the rest.
-/

namespace WorkItemQuery
namespace Tree

/-! ## Following a chain -/

/-- The link of a chain that comes a number of steps after the first. -/
def linkAfter? (kind : Kind) : Nat → Tree → Option Tree
  | 0, tree => some tree
  | steps + 1, tree => (tree.part? kind).bind (linkAfter? kind steps)

theorem getElem?_links (kind : Kind) (tree : Tree) (steps : Nat) :
    (tree.links kind)[steps]? = linkAfter? kind steps tree := by
  induction steps generalizing tree with
  | zero =>
      cases next : tree.part? kind with
      | none => rw [links_of_last next]; rfl
      | some rest => rw [links_of_next next]; rfl
  | succ steps ih =>
      cases next : tree.part? kind with
      | none => simp [links_of_last next, linkAfter?, next]
      | some rest => simp [links_of_next next, linkAfter?, next, ih]

/-! ## Roles -/

/-- Two links say the same, apart from what follows them. -/
structure SameRoles (link link' : Tree) : Prop where
  /-- The field. -/
  field : link.requirePart .field "field" = link'.requirePart .field "field"
  /-- The side of the link before the field. -/
  side : ∀ form, link.readSideOf form = link'.readSideOf form
  /-- The direction. -/
  direction : link.tokenInput? .ascDesc = link'.tokenInput? .ascDesc
  /-- The value. -/
  value : link.requirePart .value "value" = link'.requirePart .value "value"
  /-- The condition. -/
  condition : ∀ form ∈ [Dialect.flat, .link], link.part? form.condition = link'.part? form.condition
  /-- The word before the condition. -/
  modifier : link.tokenInput? .everNot = link'.tokenInput? .everNot
  /-- The word behind the condition. -/
  connective : link.tokenInput? .andOr = link'.tokenInput? .andOr

section

variable {tree tree' : Tree} {roles : KindSet} (inputs_eq : tree.inputs roles = tree'.inputs roles)

include inputs_eq

theorem input?_congr : tree.input? roles = tree'.input? roles := by
  rw [input?_eq_head?, input?_eq_head?, inputs_eq]

theorem tokenInput?_congr : tree.tokenInput? roles = tree'.tokenInput? roles :=
  congrArg (·.bind token?) (input?_congr inputs_eq)

theorem nodeInput?_congr : tree.nodeInput? roles = tree'.nodeInput? roles :=
  congrArg (·.bind node?) (input?_congr inputs_eq)

end

theorem requirePart_congr {tree tree' : Tree} {role : Kind}
    (inputs_eq : tree.inputs (.single role) = tree'.inputs (.single role))
    (kind_eq : tree.kind = tree'.kind) (name : String) :
    tree.requirePart role name = tree'.requirePart role name := by
  have part_eq : tree.part? role = tree'.part? role := nodeInput?_congr inputs_eq
  rw [requirePart, requirePart, part_eq]
  cases tree'.part? role with
  | none => exact congrArg (fun kind => Except.error (BrokenRole.mk kind name)) kind_eq
  | some child => rfl

/-- A child takes no part in the roles that its kind does not play. -/
theorem inputs_concat (kind : Kind) (children : List Tree) {child : Tree} {roles : KindSet}
    (no_role : child.kind ∉ roles) :
    (node kind (children ++ [child])).inputs roles = (node kind children).inputs roles := by
  have dropped : [child].filter (fun child => roles.contains child.kind) = [] :=
    List.filter_eq_nil_iff.2 (List.forall_mem_singleton.2 no_role)
  rw [inputs, inputs, children_node, children_node, List.filter_append, dropped, List.append_nil]

end Tree

namespace Grammar

open WorkItemQuery.Tree (SameRoles linkAfter?)

/-- The kind of the child that every element of a list has, for the kinds of lists. -/
def memberKind? : Kind → Option Kind
  | .fieldList | .orderList | .linkOrderList => some .field
  | .valueList => some .value
  | .logicalExpression => some .condition
  | .linkExpression => some .linkCondition
  | _ => none

/-- The children can be an element of a list: the required child is among them, and no list of the
same kind. -/
structure IsElement (kind member : Kind) (element : List Tree) : Prop where
  /-- There is the required child. -/
  has_member : ∃ child ∈ element, child.kind = member
  /-- There is no list of the same kind. -/
  no_list : ∀ child ∈ element, child.kind ≠ kind

section

variable {kind member : Kind} {element : List Tree}

/-- The required child is enough for a node, whatever stands behind it. -/
theorem IsElement.node_eq (is_list : memberKind? kind = some member)
    (is_element : IsElement kind member element) (tail : List Tree) :
    node kind (element ++ tail) = .ok (.node kind (element ++ tail)) := by
  obtain ⟨child, mem, child_kind⟩ := is_element.has_member
  have mem_append : child ∈ element ++ tail := List.mem_append_left tail mem
  apply node_of_checkShape
  cases kind <;> cases is_list <;>
    exact Tree.checkRole_of_mem child mem_append (KindSet.mem_single.2 child_kind)

/-- The kinds of lists play no role of a link but that of the rest. -/
theorem notMem_of_memberKind? (is_list : memberKind? kind = some member) :
    kind ∉ KindSet.sideNode ∧ kind ∉ KindSet.ascDesc ∧ kind ∉ KindSet.everNot ∧
      kind ∉ KindSet.andOr ∧
      ∀ role ∈ [Kind.field, .value, .condition, .linkCondition], kind ∉ KindSet.single role := by
  cases kind <;> cases is_list <;> decide

/-- What a link says is said by the children that play its roles. -/
theorem sameRoles_of_inputs_eq (is_list : memberKind? kind = some member)
    {children children' : List Tree}
    (inputs_eq : ∀ roles, kind ∉ roles →
      (Tree.node kind children).inputs roles = (Tree.node kind children').inputs roles) :
    SameRoles (.node kind children) (.node kind children') := by
  obtain ⟨no_side, no_direction, no_modifier, no_connective, no_part⟩ :=
    notMem_of_memberKind? is_list
  have part_inputs_eq : ∀ role ∈ [Kind.field, .value, .condition, .linkCondition],
      (Tree.node kind children).inputs (.single role) =
        (Tree.node kind children').inputs (.single role) :=
    fun role mem => inputs_eq _ (no_part role mem)
  refine ⟨?_, fun form => ?_, ?_, ?_, fun form mem => ?_, ?_, ?_⟩
  · exact Tree.requirePart_congr (part_inputs_eq .field (by decide)) rfl _
  · rw [Tree.readSideOf, Tree.readSideOf, Tree.nodeInput?_congr (inputs_eq _ no_side)]
  · exact Tree.tokenInput?_congr (inputs_eq _ no_direction)
  · exact Tree.requirePart_congr (part_inputs_eq .value (by decide)) rfl _
  · have condition_mem : form.condition ∈ [Kind.field, .value, .condition, .linkCondition] := by
      revert form
      decide
    exact Tree.nodeInput?_congr (part_inputs_eq _ condition_mem)
  · exact Tree.tokenInput?_congr (inputs_eq _ no_modifier)
  · exact Tree.tokenInput?_congr (inputs_eq _ no_connective)

/-! ## The list of a chain -/

/-- The trees are the links of a list: each has an element for children and, behind it, the next
link, if there is one. -/
structure AreLinks (kind : Kind) (elements : List (List Tree)) (links : List Tree) : Prop where
  /-- There is one link for each element. -/
  length_eq : links.length = elements.length
  /-- The links are those of the elements, in their order. -/
  link_eq : ∀ (index : Nat) element, elements[index]? = some element →
    links[index]? = some (.node kind (element ++ links[index + 1]?.toList))

theorem AreLinks.nil (kind : Kind) : AreLinks kind [] [] := ⟨rfl, by simp⟩

theorem AreLinks.cons {elements : List (List Tree)} {links : List Tree}
    (are_links : AreLinks kind elements links) (element : List Tree) :
    AreLinks kind (element :: elements) (.node kind (element ++ links.head?.toList) :: links) where
  length_eq := congrArg (· + 1) are_links.length_eq
  link_eq
    | 0, _, rfl => by simp [List.head?_eq_getElem?]
    | index + 1, other, other_eq => are_links.link_eq index other other_eq

/-- The elements of a list link to a chain, and following the chain meets their links. -/
theorem exists_chain (is_list : memberKind? kind = some member) {elements : List (List Tree)}
    (not_nil : elements ≠ [])
    (are_elements : ∀ element ∈ elements, IsElement kind member element) :
    ∃ children, chain kind elements = .ok (.node kind children) ∧
      AreLinks kind elements ((Tree.node kind children).links kind) := by
  induction elements with
  | nil => exact absurd rfl not_nil
  | cons element rest ih =>
      obtain ⟨is_element, rest_elements⟩ := List.forall_mem_cons.1 are_elements
      cases rest with
      | nil =>
          have links_eq := Tree.links_of_last (Tree.part?_eq_none is_element.no_list kind)
          refine ⟨element, ?_, ?_⟩
          · simpa [chain] using is_element.node_eq is_list []
          · rw [links_eq]
            simpa using (AreLinks.nil kind).cons element
      | cons next more =>
          obtain ⟨children, chain_eq, are_links⟩ := ih nofun rest_elements
          have next_eq : (Tree.node kind (element ++ [.node kind children])).part? kind =
              some (.node kind children) :=
            Tree.part?_of_append is_element.no_list rfl rfl kind []
          have first_eq : ((Tree.node kind children).links kind).head? =
              some (.node kind children) := by
            rw [List.head?_eq_getElem?, Tree.getElem?_links]
            rfl
          -- The next link is the first child of its kind, and so the rest of the chain.
          refine ⟨element ++ [.node kind children], ?_, ?_⟩
          · rw [chain_cons_cons, chain_eq]
            exact is_element.node_eq is_list _
          · rw [Tree.links_of_next next_eq]
            have all_links := are_links.cons element
            rwa [first_eq] at all_links

/-- A link says what its own element says. -/
theorem AreLinks.roles_eq (is_list : memberKind? kind = some member)
    {elements : List (List Tree)} {links : List Tree} (are_links : AreLinks kind elements links)
    {index : Nat} {link : Tree} (element_eq : elements[index]? = some element)
    (link_eq : links[index]? = some link) :
    (∀ roles, kind ∉ roles → link.inputs roles = (Tree.node kind element).inputs roles) ∧
      SameRoles link (.node kind element) := by
  obtain rfl := Option.some.inj (link_eq.symm.trans (are_links.link_eq index element element_eq))
  have inputs_eq : ∀ roles, kind ∉ roles →
      (Tree.node kind (element ++ links[index + 1]?.toList)).inputs roles =
        (Tree.node kind element).inputs roles := by
    intro roles no_role
    cases next_eq : links[index + 1]? with
    | none => rw [Option.toList_none, List.append_nil]
    | some next =>
        -- What follows is a link of the same list, whose kind plays none of these roles.
        obtain ⟨le, -⟩ := List.getElem?_eq_some_iff.1 next_eq
        rw [are_links.length_eq] at le
        have next_is := are_links.link_eq (index + 1) _ (List.getElem?_eq_getElem le)
        obtain rfl := Option.some.inj (next_eq.symm.trans next_is)
        exact Tree.inputs_concat kind element no_role
  exact ⟨inputs_eq, sameRoles_of_inputs_eq is_list inputs_eq⟩

/-- Following a chain gives back the list of its elements. -/
structure IsFollowed (kind : Kind) (elements : List (List Tree)) (tree : Tree) : Prop where
  /-- The links that are met are those of the elements. -/
  links : AreLinks kind elements (tree.links kind)
  /-- From link to link, the chain ends behind the last element. -/
  ends_iff : ∀ steps, linkAfter? kind steps tree = none ↔ elements.length ≤ steps
  /-- All roles but that of the rest are played as in a node of the element alone. -/
  roles_eq : ∀ (index : Nat) element link, elements[index]? = some element →
    (tree.links kind)[index]? = some link →
      (∀ roles, kind ∉ roles → link.inputs roles = (Tree.node kind element).inputs roles) ∧
        SameRoles link (.node kind element)

/-- The elements of a list can be linked, and following the chain gives back their list. -/
theorem chain_followed (is_list : memberKind? kind = some member) {elements : List (List Tree)}
    (not_nil : elements ≠ [])
    (are_elements : ∀ element ∈ elements, IsElement kind member element) :
    ∃ tree, chain kind elements = .ok tree ∧ IsFollowed kind elements tree := by
  obtain ⟨children, chain_eq, are_links⟩ := exists_chain is_list not_nil are_elements
  refine ⟨.node kind children, chain_eq, are_links, fun steps => ?_, ?_⟩
  · rw [← Tree.getElem?_links, List.getElem?_eq_none_iff, are_links.length_eq]
  · exact fun _ _ _ => are_links.roles_eq is_list

end

/-- Two sort keys, of which the second has a direction. -/
def twoSortKeys : List (List Tree) :=
  [[.node .field [.leaf ⟨⟨.identifier, 1, 1, 0, "id"⟩, []⟩], .leaf ⟨⟨.comma, 1, 3, 2, ","⟩, []⟩],
    [.node .field [.leaf ⟨⟨.identifier, 1, 5, 4, "rev"⟩, []⟩],
      .leaf ⟨⟨.descKw, 1, 9, 8, "desc"⟩, []⟩]]

/-- The direction of the second sort key is not that of the first. -/
theorem chain_followed_directions :
    twoSortKeys ≠ [] ∧ (∀ element ∈ twoSortKeys, IsElement .orderList .field element) ∧
      ∃ tree, chain .orderList twoSortKeys = .ok tree ∧
        IsFollowed .orderList twoSortKeys tree ∧
        (tree.links .orderList).map (fun link => (link.tokenInput? .ascDesc).isSome) =
          [false, true] := by
  have not_nil : twoSortKeys ≠ [] := nofun
  have are_elements : ∀ element ∈ twoSortKeys, IsElement .orderList .field element := by
    have has_member : ∀ element ∈ twoSortKeys, ∃ child ∈ element, child.kind = .field := by decide
    have no_list : ∀ element ∈ twoSortKeys, ∀ child ∈ element, child.kind ≠ .orderList := by decide
    exact fun element mem => ⟨has_member element mem, no_list element mem⟩
  obtain ⟨tree, chain_eq, followed⟩ := chain_followed rfl not_nil are_elements
  refine ⟨not_nil, are_elements, tree, chain_eq, followed, ?_⟩
  cases chain_eq
  decide +kernel

end Grammar
end WorkItemQuery
