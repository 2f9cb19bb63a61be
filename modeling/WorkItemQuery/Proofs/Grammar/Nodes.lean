import WorkItemQuery.Grammar.Derivation
import WorkItemQuery.Grammar

/-!
# The nodes of derivation trees

The rules of the grammar give every node the children that its kind requires, so that a production
which has taken the words of a rule can always build its node.
-/

namespace WorkItemQuery

theorem KindSet.contains_of_mem {kind : Kind} {kinds : KindSet} (mem : kind ∈ kinds) :
    kinds.contains kind = true := mem

theorem KindSet.contains_of_notMem {kind : Kind} {kinds : KindSet} (notMem : kind ∉ kinds) :
    kinds.contains kind = false := Bool.eq_false_iff.2 notMem

namespace Tree

theorem has_node (kind : Kind) (children : List Tree) (kinds : KindSet) :
    (node kind children).has kinds = children.any fun child => kinds.contains child.kind := by
  rw [Bool.eq_iff_iff, has_iff, List.any_eq_true]
  rfl

theorem checkRole_of_mem {tree : Tree} {kinds : KindSet} (child : Tree) {role : String}
    (mem : child ∈ tree.children) (kind_mem : child.kind ∈ kinds) :
    tree.checkRole kinds role = .ok () := by
  have has : tree.has kinds = true := has_iff.2 ⟨child, mem, kind_mem⟩
  rw [checkRole, if_pos has]

end Tree

namespace Grammar

theorem node_of_checkShape {kind : Kind} {children : List Tree}
    (shape : (Tree.node kind children).checkShape = .ok ()) :
    node kind children = .ok (.node kind children) := by
  unfold node Tree.build
  rw [shape]
  rfl

theorem chain_cons_cons (kind : Kind) (children next : List Tree) (rest : List (List Tree)) :
    chain kind (children :: next :: rest) =
      (chain kind (next :: rest) >>= fun tail => node kind (children ++ [tail])) := rfl

/-! ## Kinds -/

theorem IsField.kind_eq {tree : Tree} (is_field : IsField tree) : tree.kind = .field := by
  cases is_field
  rfl

theorem IsNumber.kind_eq {tree : Tree} (is_number : IsNumber tree) : tree.kind = .number := by
  cases is_number <;> rfl

theorem IsDate.kind_eq {tree : Tree} (is_date : IsDate tree) : tree.kind = .dateTime := by
  cases is_date
  rfl

theorem IsTerm.kind_mem {tree : Tree} (is_term : IsTerm tree) :
    tree.kind = .number ∨ tree.kind = .field ∨ tree.kind ∈ simpleTerms := by
  cases is_term with
  | number tree is_number => exact .inl is_number.kind_eq
  | field tree is_field => exact .inr (.inl is_field.kind_eq)
  | simple token mem => exact .inr (.inr mem)

theorem IsValue.kind_eq {tree : Tree} (is_value : IsValue tree) : tree.kind = .value := by
  cases is_value <;> rfl

theorem IsChain.kind_eq {kind : Kind} {separators : KindSet} {IsItem : List Tree → Prop}
    {tree : Tree} (is_chain : IsChain kind separators IsItem tree) : tree.kind = kind := by
  cases is_chain <;> rfl

theorem comparisonOperators_subset {kind : Kind} :
    kind ∈ KindSet.comparisonOperators → kind ∈ KindSet.conditionTokens := by
  cases kind <;> decide

theorem IsOperatorProper.kind_mem {tree : Tree} (is_proper : IsOperatorProper tree) :
    tree.kind ∈ KindSet.conditionTokens := by
  cases is_proper with
  | containsWords | inGroup => rfl
  | single token choice =>
      rw [Tree.kind_leaf]
      obtain mem | kind_eq | kind_eq := choice
      · exact comparisonOperators_subset mem
      · rw [kind_eq]
        rfl
      · rw [kind_eq]
        rfl

theorem IsOperator.kind_eq {tree : Tree} (is_operator : IsOperator tree) :
    tree.kind = .operator := by
  cases is_operator
  rfl

theorem IsSide.kind_mem {tree : Tree} (is_side : IsSide tree) : tree.kind ∈ KindSet.sideNode := by
  cases is_side <;> rfl

theorem IsCondition.kind_eq {form : Dialect} {tree : Tree} (is_condition : IsCondition form tree) :
    tree.kind = form.condition := by
  cases is_condition <;> rfl

theorem IsExpression.kind_eq {form : Dialect} {tree : Tree}
    (is_expression : IsExpression form tree) : tree.kind = form.expression := by
  cases is_expression <;> rfl

theorem IsModeClause.kind_eq {kind : Kind} {trees : List Tree} (is_clause : IsModeClause kind trees) :
    kind = .oneHopSelect ∨ kind = .recursiveSelect := by
  cases is_clause with
  | absent => exact .inl rfl
  | present kind word opened inside closed word_kind opened_kind is_mode =>
      cases is_mode with
      | oneHop => exact .inl rfl
      | recursive | matching => exact .inr rfl

theorem IsLinkClauses.kind_eq {kind : Kind} {trees : List Tree}
    (is_clauses : IsLinkClauses kind trees) : kind = .oneHopSelect ∨ kind = .recursiveSelect := by
  cases is_clauses with
  | dateFirst date mode is_date is_mode => exact is_mode.kind_eq
  | modeFirst mode date is_mode => exact is_mode.kind_eq

/-! ## The nodes of the rules -/

/-- A node of which the check asks one child only, of some kind. -/
theorem node_of_mem {kind role : Kind} {name : String} {child : Tree} {children : List Tree}
    (asks : (Tree.node kind children).checkShape =
      (Tree.node kind children).checkRole (.single role) name)
    (mem : child ∈ children) (child_kind : child.kind = role) :
    node kind children = .ok (.node kind children) :=
  node_of_checkShape
    (asks.trans (Tree.checkRole_of_mem child mem (KindSet.mem_single.2 child_kind)))

theorem node_field {name : Token} (name_kind : name.kind = .identifier) :
    node .field [.leaf name] = .ok (.node .field [.leaf name]) :=
  node_of_mem rfl (.head _) name_kind

theorem node_number {minus : List Tree} {digits : Token} (digits_kind : digits.kind = .digits) :
    node .number (minus ++ [.leaf digits]) = .ok (.node .number (minus ++ [.leaf digits])) :=
  node_of_mem rfl (List.mem_append_right _ (.head _)) digits_kind

theorem node_date {text : Token} (text_kind : text.kind = .string) :
    node .dateTime [.leaf text] = .ok (.node .dateTime [.leaf text]) :=
  node_of_mem rfl (.head _) text_kind

theorem node_containsWords {contains words : Token} (contains_kind : contains.kind = .containsKw)
    (words_kind : words.kind = .wordsKw) :
    node .containsWords [.leaf contains, .leaf words] =
      .ok (.node .containsWords [.leaf contains, .leaf words]) := by
  apply node_of_checkShape
  rw [Tree.checkShape, Tree.kind_node]
  simp only
  rw [Tree.checkRole_of_mem (.leaf contains) (by simp) (KindSet.mem_single.2 contains_kind),
    Tree.checkRole_of_mem (.leaf words) (by simp) (KindSet.mem_single.2 words_kind)]
  rfl

theorem node_inGroup (children : List Tree) :
    node .inGroup children = .ok (.node .inGroup children) :=
  node_of_checkShape rfl

theorem node_operator {negation : List Tree} {proper : Tree} (is_proper : IsOperatorProper proper) :
    node .operator (negation ++ [proper]) = .ok (.node .operator (negation ++ [proper])) := by
  refine node_of_checkShape (Tree.checkRole_of_mem proper ?_ is_proper.kind_mem)
  simp

theorem IsTerm.mem_valueKinds {tree : Tree} (is_term : IsTerm tree) :
    tree.kind ∈ KindSet.valueKinds ∧ tree.kind ∉ KindSet.plusMinus := by
  have kinds : ∀ kind : Kind, kind = .number ∨ kind = .field ∨ kind ∈ simpleTerms →
      kind ∈ KindSet.valueKinds ∧ kind ∉ KindSet.plusMinus := by
    intro kind
    cases kind <;> decide
  exact kinds _ is_term.kind_mem

theorem node_value {term : Tree} (is_term : IsTerm term) :
    node .value [term] = .ok (.node .value [term]) := by
  obtain ⟨mem, notMem⟩ := is_term.mem_valueKinds
  have no_sign : (Tree.node .value [term]).has .plusMinus = false := by
    rw [Tree.has_node]
    simp [KindSet.contains_of_notMem notMem]
  apply node_of_checkShape
  rw [Tree.checkShape, Tree.kind_node]
  simp only [no_sign, Bool.false_and]
  rw [Tree.checkRole_of_mem _ (.head _) mem]
  rfl

/-- The offset of a value is the number behind the sign, also when the term is a number itself. -/
theorem offsetNumber?_shifted {term offset : Tree} {sign : Token} (is_term : IsTerm term)
    (sign_mem : sign.kind ∈ KindSet.plusMinus) (is_number : IsNumber offset) :
    (Tree.node .value [term, .leaf sign, offset]).offsetNumber? = some offset := by
  obtain ⟨mem, notMem⟩ := is_term.mem_valueKinds
  have sign_ne : sign.kind ≠ .number := by
    intro kind_eq
    rw [kind_eq] at sign_mem
    cases sign_mem
  have offset_node : offset.node? = some offset := by
    cases is_number <;> rfl
  have signs : (Tree.node .value [term, .leaf sign, offset]).input? .plusMinus =
      some (.leaf sign) := by
    rw [Tree.input?_eq_head?, Tree.inputs]
    simp [KindSet.contains_of_notMem notMem, KindSet.contains_of_mem sign_mem]
  have terms : (Tree.node .value [term, .leaf sign, offset]).input? .valueKinds = some term := by
    rw [Tree.input?_eq_head?, Tree.inputs]
    simp [KindSet.contains_of_mem mem]
  rw [Tree.offsetNumber?, signs, terms]
  simp only [Option.any_some]
  by_cases number : term.kind = .number
  · have numbers : (Tree.node .value [term, .leaf sign, offset]).inputs (.single .number) =
        [term, offset] := by
      simp [Tree.inputs, KindSet.single, number, sign_ne, is_number.kind_eq]
    simp [Tree.nthNode?, Tree.nthInput?, numbers, number, offset_node]
  · have numbers : (Tree.node .value [term, .leaf sign, offset]).inputs (.single .number) =
        [offset] := by
      simp [Tree.inputs, KindSet.single, number, sign_ne, is_number.kind_eq]
    simp [Tree.nthNode?, Tree.nthInput?, numbers, number, offset_node]

theorem node_shifted {term offset : Tree} {sign : Token} (is_term : IsTerm term)
    (sign_mem : sign.kind ∈ KindSet.plusMinus) (is_number : IsNumber offset) :
    node .value [term, .leaf sign, offset] = .ok (.node .value [term, .leaf sign, offset]) := by
  apply node_of_checkShape
  rw [Tree.checkShape, Tree.kind_node]
  simp only [offsetNumber?_shifted is_term sign_mem is_number, Option.isNone_some, Bool.and_false]
  rw [Tree.checkRole_of_mem _ (.head _) is_term.mem_valueKinds.1]
  rfl

theorem node_list {kind : Kind} {member : Tree} {trees : List Tree}
    (known : kind = .fieldList ∨ kind = .orderList ∨ kind = .linkOrderList)
    (mem : member ∈ trees) (member_kind : member.kind = .field) :
    node kind trees = .ok (.node kind trees) := by
  obtain rfl | rfl | rfl := known <;> exact node_of_mem rfl mem member_kind

theorem node_valueList {member : Tree} {trees : List Tree} (mem : member ∈ trees)
    (is_value : IsValue member) : node .valueList trees = .ok (.node .valueList trees) :=
  node_of_mem rfl mem is_value.kind_eq

theorem node_side {side : Tree} (is_side : IsSide side) :
    node side.kind side.children = .ok side := by
  cases is_side with
  | source word dot word_kind | target word dot word_kind =>
      exact node_of_mem rfl (.head _) word_kind

/-- One of the two forms of conditions and sort keys. -/
def IsForm (form : Dialect) : Prop := form = .flat ∨ form = .link

theorem node_expression {form : Dialect} (is_form : IsForm form) {member : Tree}
    {trees : List Tree} (mem : member ∈ trees) (is_condition : IsCondition form member) :
    node form.expression trees = .ok (.node form.expression trees) := by
  have member_kind := is_condition.kind_eq
  obtain rfl | rfl := is_form <;> exact node_of_mem rfl mem member_kind

theorem node_nested {form : Dialect} (is_form : IsForm form) {opened closed : Token} {inner : Tree}
    (opened_kind : opened.kind = .leftParen) (is_expression : IsExpression form inner)
    (closed_kind : closed.kind = .rightParen) :
    node form.condition [.leaf opened, inner, .leaf closed] =
      .ok (.node form.condition [.leaf opened, inner, .leaf closed]) := by
  apply node_of_checkShape
  have inner_kind := is_expression.kind_eq
  obtain rfl | rfl := is_form <;>
    simp [Tree.checkShape, Tree.checkCondition, Tree.has_node, KindSet.single, inner_kind,
      opened_kind, closed_kind, Dialect.flat, Dialect.link, Tree.comparisonParts, KindSet.ofList,
      KindSet.union, KindSet.sideNode]

theorem IsOptionalSide.kinds_eq {form : Dialect} {side : List Tree}
    (is_side : IsOptionalSide form side) :
    side.map Tree.kind = [] ∨ side.map Tree.kind = [.sourceSide] ∨
      side.map Tree.kind = [.targetSide] := by
  cases is_side with
  | absent => exact .inl rfl
  | present side _ is_side => cases is_side <;> simp

theorem IsComparison.kinds_eq {comparison : List Tree} (is_comparison : IsComparison comparison) :
    comparison.map Tree.kind = [.operator, .value] ∨
      comparison.map Tree.kind = [.inKw, .leftParen, .valueList, .rightParen] ∨
      comparison.map Tree.kind = [.notKw, .inKw, .leftParen, .valueList, .rightParen] := by
  cases is_comparison with
  | compare operator value is_operator is_value =>
      exact .inl (by simp [is_operator.kind_eq, is_value.kind_eq])
  | member negation word opened values closed is_negation word_kind opened_kind is_values
      closed_kind =>
      cases is_negation with
      | absent => simp [word_kind, opened_kind, IsChain.kind_eq is_values, closed_kind]
      | present token mem =>
          simp [KindSet.mem_single.1 mem, word_kind, opened_kind, IsChain.kind_eq is_values,
            closed_kind]

theorem node_leafCondition {form : Dialect} (is_form : IsForm form) {side comparison : List Tree}
    {field : Tree} (is_side : IsOptionalSide form side) (is_field : IsField field)
    (is_comparison : IsComparison comparison) :
    node form.condition (side ++ field :: comparison) =
      .ok (.node form.condition (side ++ field :: comparison)) := by
  apply node_of_checkShape
  have has_eq : ∀ kinds : KindSet, (Tree.node form.condition (side ++ field :: comparison)).has kinds =
      ((side.map Tree.kind).any kinds.contains || kinds.contains .field ||
        (comparison.map Tree.kind).any kinds.contains) := by
    intro kinds
    simp [Tree.has_node, is_field.kind_eq, Function.comp_def, Bool.or_assoc]
  have shape : ∀ nested parts, nested = .logicalExpression ∨ nested = .linkExpression →
      (Tree.node form.condition (side ++ field :: comparison)).checkCondition nested parts =
        .ok () := by
    intro nested parts nested_eq
    simp only [Tree.checkCondition, has_eq]
    obtain rfl | rfl := nested_eq <;>
      obtain side_eq | side_eq | side_eq := is_side.kinds_eq <;>
      obtain comparison_eq | comparison_eq | comparison_eq := is_comparison.kinds_eq <;>
      rw [side_eq, comparison_eq] <;> rfl
  obtain rfl | rfl := is_form
  · exact shape _ _ (.inl rfl)
  · exact shape _ _ (.inr rfl)

theorem node_select {kind : Kind} {fields : Tree} {children : List Tree}
    (known : kind = .flatSelect ∨ kind = .oneHopSelect ∨ kind = .recursiveSelect)
    (mem : fields ∈ children) (fields_kind : fields.kind = .fieldList) :
    node kind children = .ok (.node kind children) := by
  obtain rfl | rfl | rfl := known <;> exact node_of_mem rfl mem fields_kind

end Grammar
end WorkItemQuery
