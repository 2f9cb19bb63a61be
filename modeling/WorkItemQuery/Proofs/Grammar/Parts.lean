import WorkItemQuery.Proofs.Grammar.Nodes
import WorkItemQuery.Proofs.Tree.Order

/-!
# The parts of a derivation tree

Every node of a derivation tree is derived by a rule of the grammar, and no part of it is without
tokens.  A name stands nowhere but in a field.
-/

namespace WorkItemQuery
namespace Grammar

/-- A token that is no name, or a tree that a rule derives. -/
inductive IsPart : Tree → Prop where
  | leaf (token : Token) : token.kind ≠ .identifier → IsPart (.leaf token)
  | field {tree : Tree} : IsField tree → IsPart tree
  | number {tree : Tree} : IsNumber tree → IsPart tree
  | date {tree : Tree} : IsDate tree → IsPart tree
  | value {tree : Tree} : IsValue tree → IsPart tree
  | valueList {tree : Tree} : IsValueList tree → IsPart tree
  | operatorProper {tree : Tree} : IsOperatorProper tree → IsPart tree
  | operator {tree : Tree} : IsOperator tree → IsPart tree
  | side {tree : Tree} : IsSide tree → IsPart tree
  | condition {form : Dialect} {tree : Tree} : IsForm form → IsCondition form tree → IsPart tree
  | expression {form : Dialect} {tree : Tree} : IsForm form → IsExpression form tree → IsPart tree
  | fieldList {tree : Tree} : IsFieldList tree → IsPart tree
  | orderList {form : Dialect} {tree : Tree} : IsForm form → IsOrderList form tree → IsPart tree
  | query {tree : Tree} : IsQuery tree → IsPart tree

/-! ## Children -/

theorem IsOperatorProper.kind_ne {tree : Tree} (is_proper : IsOperatorProper tree) :
    tree.kind ≠ .identifier := by
  cases is_proper with
  | single token choice =>
      have kinds : ∀ kind : Kind, kind ∈ KindSet.comparisonOperators ∨ kind = .everKw ∨
          kind = .containsKw → kind ≠ .identifier := by
        decide
      exact kinds _ choice
  | containsWords | inGroup => nofun

@[simp]
theorem isPart_leaf_iff {token : Token} : IsPart (.leaf token) ↔ token.kind ≠ .identifier := by
  refine ⟨fun is_part => ?_, .leaf token⟩
  cases is_part with
  | leaf _ not_name => exact not_name
  | operatorProper is_proper => exact is_proper.kind_ne
  | field derived | number derived | date derived | value derived | valueList derived
  | operator derived | side derived | condition _ derived | expression _ derived
  | fieldList derived | orderList _ derived | query derived =>
      cases derived

theorem IsTerm.isPart {tree : Tree} (is_term : IsTerm tree) : IsPart tree := by
  cases is_term with
  | number tree is_number => exact .number is_number
  | field tree is_field => exact .field is_field
  | simple token mem =>
      have kinds : ∀ kind ∈ simpleTerms, kind ≠ .identifier := by decide
      exact .leaf token (kinds _ mem)

theorem IsOptional.parts {kinds : KindSet} {trees : List Tree}
    (is_optional : IsOptional kinds trees) (no_name : ∀ kind ∈ kinds, kind ≠ .identifier) :
    ∀ tree ∈ trees, IsPart tree := by
  cases is_optional with
  | absent => nofun
  | present token mem => simpa using no_name _ mem

theorem IsOptionalSide.parts {form : Dialect} {trees : List Tree}
    (is_side : IsOptionalSide form trees) : ∀ tree ∈ trees, IsPart tree := by
  cases is_side with
  | absent => nofun
  | present side has_sides is_side => simpa using IsPart.side is_side

theorem IsComparison.parts {trees : List Tree} (is_comparison : IsComparison trees) :
    ∀ tree ∈ trees, IsPart tree := by
  cases is_comparison with
  | compare operator value is_operator is_value =>
      simp [IsPart.operator is_operator, IsPart.value is_value]
  | member negation word opened values closed is_negation word_kind opened_kind is_values
      closed_kind =>
      refine List.forall_mem_append.2 ⟨is_negation.parts (by decide), ?_⟩
      simp [word_kind, opened_kind, closed_kind, IsPart.valueList is_values]

theorem IsSortKey.parts {form : Dialect} {trees : List Tree} (is_key : IsSortKey form trees) :
    ∀ tree ∈ trees, IsPart tree := by
  cases is_key with
  | key side field direction is_side is_field is_direction =>
      exact List.forall_mem_append.2
        ⟨is_side.parts, List.forall_mem_cons.2 ⟨.field is_field, is_direction.parts (by decide)⟩⟩

theorem IsClause.parts {word : Kind} {IsBody : Tree → Prop} {trees : List Tree}
    (is_clause : IsClause word IsBody trees) (not_name : word ≠ .identifier)
    (body_part : ∀ tree, IsBody tree → IsPart tree) : ∀ tree ∈ trees, IsPart tree := by
  cases is_clause with
  | absent => nofun
  | present token body token_kind is_body => simp [token_kind, not_name, body_part body is_body]

theorem IsModeClause.parts {kind : Kind} {trees : List Tree}
    (is_clause : IsModeClause kind trees) : ∀ tree ∈ trees, IsPart tree := by
  cases is_clause with
  | absent => nofun
  | present kind word opened inside closed word_kind opened_kind is_mode closed_kind =>
      cases is_mode with
      | oneHop mode mem =>
          have kinds : ∀ kind ∈ KindSet.linkMode, kind ≠ .identifier := by decide
          simp [word_kind, opened_kind, closed_kind, kinds _ mem]
      | recursive mode mode_kind => simp [word_kind, opened_kind, closed_kind, mode_kind]
      | matching mode comma matching mode_kind comma_kind matching_kind =>
          simp [word_kind, opened_kind, closed_kind, mode_kind, comma_kind, matching_kind]

theorem IsLinkClauses.parts {kind : Kind} {trees : List Tree}
    (is_clauses : IsLinkClauses kind trees) : ∀ tree ∈ trees, IsPart tree := by
  cases is_clauses with
  | dateFirst date mode is_date is_mode =>
      exact List.forall_mem_append.2 ⟨is_date.parts nofun fun _ => .date, is_mode.parts⟩
  | modeFirst mode date is_mode is_date =>
      exact List.forall_mem_append.2 ⟨is_mode.parts, is_date.parts nofun fun _ => .date⟩

theorem IsHead.parts {source : Kind} {trees : List Tree} (is_head : IsHead source trees)
    (not_name : source ≠ .identifier) : ∀ tree ∈ trees, IsPart tree := by
  obtain ⟨select, fields, origin, place, select_kind, is_fields, origin_kind, place_kind⟩ := is_head
  simp [select_kind, IsPart.fieldList is_fields, origin_kind, place_kind, not_name]

theorem IsFilter.parts {form : Dialect} (is_form : IsForm form) {trees : List Tree}
    (is_filter : IsFilter form trees) : ∀ tree ∈ trees, IsPart tree := by
  obtain ⟨conditions, order, is_conditions, is_order⟩ := is_filter
  exact List.forall_mem_append.2 ⟨is_conditions.parts nofun fun _ => .expression is_form,
    is_order.parts nofun fun _ => .orderList is_form⟩

theorem IsChain.parts {kind : Kind} {separators : KindSet} {IsItem : List Tree → Prop}
    {tree : Tree} (is_chain : IsChain kind separators IsItem tree)
    (no_name : ∀ kind ∈ separators, kind ≠ .identifier)
    (item_parts : ∀ trees, IsItem trees → ∀ tree ∈ trees, IsPart tree)
    (rest_part : ∀ tree, IsChain kind separators IsItem tree → IsPart tree) :
    ∀ child ∈ tree.children, IsPart child := by
  cases is_chain with
  | last item is_item => exact item_parts item is_item
  | more item separator rest is_item mem is_rest =>
      exact List.forall_mem_append.2
        ⟨item_parts item is_item, by simp [no_name _ mem, rest_part rest is_rest]⟩

theorem IsCondition.parts {form : Dialect} (is_form : IsForm form) {tree : Tree}
    (is_condition : IsCondition form tree) : ∀ child ∈ tree.children, IsPart child := by
  cases is_condition with
  | nested opened inner closed opened_kind is_expression closed_kind =>
      simp [opened_kind, IsPart.expression is_form is_expression, closed_kind]
  | leaf side field comparison is_side is_field is_comparison =>
      exact List.forall_mem_append.2
        ⟨is_side.parts, List.forall_mem_cons.2 ⟨.field is_field, is_comparison.parts⟩⟩

theorem IsExpression.parts {form : Dialect} (is_form : IsForm form) {tree : Tree}
    (is_expression : IsExpression form tree) : ∀ child ∈ tree.children, IsPart child := by
  cases is_expression with
  | last modifier condition is_modifier is_condition =>
      exact List.forall_mem_append.2 ⟨is_modifier.parts (by decide), by
        simp [IsPart.condition is_form is_condition]⟩
  | more modifier condition connective rest is_modifier is_condition mem is_rest =>
      have kinds : ∀ kind ∈ KindSet.andOr, kind ≠ .identifier := by decide
      refine List.forall_mem_append.2 ⟨is_modifier.parts (by decide), ?_⟩
      simp [IsPart.condition is_form is_condition, kinds _ mem, IsPart.expression is_form is_rest]

theorem IsQuery.parts {tree : Tree} (is_query : IsQuery tree) :
    ∀ child ∈ tree.children, IsPart child := by
  cases is_query with
  | flat head filter date is_head is_filter is_date =>
      exact List.forall_mem_append.2
        ⟨List.forall_mem_append.2 ⟨is_head.parts nofun, is_filter.parts (.inl rfl)⟩,
          is_date.parts nofun fun _ => .date⟩
  | link kind head filter clauses is_head is_filter is_clauses =>
      exact List.forall_mem_append.2
        ⟨List.forall_mem_append.2 ⟨is_head.parts nofun, is_filter.parts (.inr rfl)⟩,
          is_clauses.parts⟩

/-- The children of a part that is no field are parts. -/
theorem IsPart.children {tree : Tree} (is_part : IsPart tree) (no_field : tree.kind ≠ .field) :
    ∀ child ∈ tree.children, IsPart child := by
  cases is_part with
  | leaf token => nofun
  | field is_field => exact absurd is_field.kind_eq no_field
  | number is_number =>
      cases is_number with
      | plain digits digits_kind => simp [digits_kind]
      | negative minus digits minus_kind digits_kind => simp [minus_kind, digits_kind]
  | date is_date =>
      obtain ⟨text, text_kind⟩ := is_date
      simp [text_kind]
  | value is_value =>
      cases is_value with
      | plain term is_term => simp [is_term.isPart]
      | shifted term sign offset is_term mem is_number =>
          have kinds : ∀ kind ∈ KindSet.plusMinus, kind ≠ .identifier := by decide
          simp [is_term.isPart, kinds _ mem, IsPart.number is_number]
  | valueList is_list =>
      refine IsChain.parts is_list (by decide) ?_ fun _ => .valueList
      rintro _ ⟨value, rfl, is_value⟩
      simp [IsPart.value is_value]
  | operatorProper is_proper =>
      cases is_proper with
      | single token => nofun
      | containsWords contains words contains_kind words_kind =>
          simp [contains_kind, words_kind]
      | inGroup word group word_kind group_kind => simp [word_kind, group_kind]
  | operator is_operator =>
      obtain ⟨negation, proper, is_negation, is_proper⟩ := is_operator
      exact List.forall_mem_append.2
        ⟨is_negation.parts (by decide), by simp [IsPart.operatorProper is_proper]⟩
  | side is_side =>
      cases is_side with
      | source word dot word_kind dot_kind | target word dot word_kind dot_kind =>
          simp [word_kind, dot_kind]
  | condition is_form is_condition => exact is_condition.parts is_form
  | expression is_form is_expression => exact is_expression.parts is_form
  | fieldList is_list =>
      refine IsChain.parts is_list (by decide) ?_ fun _ => .fieldList
      rintro _ ⟨field, rfl, is_field⟩
      simp [IsPart.field is_field]
  | orderList is_form is_list =>
      exact IsChain.parts is_list (by decide) (fun _ => IsSortKey.parts) fun _ =>
        .orderList is_form
  | query is_query => exact is_query.parts

/-- Fields, numbers and values are derived by the rules of their kinds. -/
theorem IsPart.rule_of_kind {tree : Tree} (is_part : IsPart tree)
    (is_node : tree.node? = some tree) :
    (tree.kind = .field → IsField tree) ∧ (tree.kind = .number → IsNumber tree) ∧
      (tree.kind = .value → IsValue tree) := by
  cases is_part with
  | leaf token => cases is_node
  | field is_field => exact ⟨fun _ => is_field, by cases is_field; nofun, by cases is_field; nofun⟩
  | number is_number =>
      exact ⟨by cases is_number <;> nofun, fun _ => is_number, by cases is_number <;> nofun⟩
  | date is_date => cases is_date; exact ⟨nofun, nofun, nofun⟩
  | value is_value =>
      exact ⟨by cases is_value <;> nofun, by cases is_value <;> nofun, fun _ => is_value⟩
  | valueList is_list => rw [IsChain.kind_eq is_list]; exact ⟨nofun, nofun, nofun⟩
  | operatorProper is_proper =>
      cases is_proper with
      | single token => cases is_node
      | containsWords | inGroup => exact ⟨nofun, nofun, nofun⟩
  | operator is_operator => cases is_operator; exact ⟨nofun, nofun, nofun⟩
  | side is_side => cases is_side <;> exact ⟨nofun, nofun, nofun⟩
  | condition is_form is_condition =>
      obtain rfl | rfl := is_form <;> cases is_condition <;> exact ⟨nofun, nofun, nofun⟩
  | expression is_form is_expression =>
      obtain rfl | rfl := is_form <;> cases is_expression <;> exact ⟨nofun, nofun, nofun⟩
  | fieldList is_list => rw [IsChain.kind_eq is_list]; exact ⟨nofun, nofun, nofun⟩
  | orderList is_form is_list =>
      rw [IsChain.kind_eq is_list]
      obtain rfl | rfl := is_form <;> exact ⟨nofun, nofun, nofun⟩
  | query is_query =>
      cases is_query with
      | flat => exact ⟨nofun, nofun, nofun⟩
      | link kind head filter clauses _ _ is_clauses =>
          obtain rfl | rfl := is_clauses.kind_eq <;> exact ⟨nofun, nofun, nofun⟩

/-- A part of the kind of a field is a field. -/
theorem IsPart.isField {tree : Tree} (is_part : IsPart tree) (is_node : tree.node? = some tree)
    (kind_eq : tree.kind = .field) : IsField tree :=
  (is_part.rule_of_kind is_node).1 kind_eq

/-! ## All nodes -/

/-- A tree is a part or a token. -/
def IsPartOrToken (tree : Tree) : Prop := IsPart tree ∨ ∃ token, tree = .leaf token

theorem IsPartOrToken.children {tree : Tree} (is_part : IsPartOrToken tree) :
    ∀ child ∈ tree.children, IsPartOrToken child := by
  obtain is_part | ⟨token, rfl⟩ := is_part
  · by_cases kind_eq : tree.kind = .field
    · cases tree with
      | leaf token => nofun
      | node kind children =>
          obtain ⟨name, -⟩ := is_part.isField rfl kind_eq
          exact fun child mem => .inr ⟨name, List.mem_singleton.1 mem⟩
    · exact fun child mem => .inl (is_part.children kind_eq child mem)
  · nofun

/-- Every node of a query is derived by a rule. -/
theorem IsQuery.isPart_of_mem {root : Tree} (is_query : IsQuery root) :
    ∀ node ∈ root.preOrder, IsPartOrToken node :=
  Tree.forall_mem_preOrder (fun _ => IsPartOrToken.children) root (.inl (.query is_query))

/-! ## Words -/

theorem IsPart.children_ne_nil {kind : Kind} {children : List Tree}
    (is_part : IsPart (.node kind children)) : children ≠ [] := by
  cases is_part with
  | field is_field => cases is_field; nofun
  | number is_number => cases is_number <;> nofun
  | date is_date => cases is_date; nofun
  | value is_value => cases is_value <;> nofun
  | valueList is_list =>
      cases is_list with
      | last _ is_item => obtain ⟨value, rfl, -⟩ := is_item; nofun
      | more => simp
  | operatorProper is_proper => cases is_proper <;> nofun
  | operator is_operator => cases is_operator; simp
  | side is_side => cases is_side <;> nofun
  | condition _ is_condition => cases is_condition <;> simp
  | expression _ is_expression => cases is_expression <;> simp
  | fieldList is_list =>
      cases is_list with
      | last _ is_item => obtain ⟨field, rfl, -⟩ := is_item; nofun
      | more => simp
  | orderList _ is_list =>
      cases is_list with
      | last _ is_item => cases is_item; simp
      | more => simp
  | query is_query =>
      cases is_query with
      | flat _ _ _ is_head => cases is_head; simp
      | link _ _ _ _ is_head => cases is_head; simp

/-- No part is without tokens. -/
theorem IsPartOrToken.tokens_ne_nil : {tree : Tree} → IsPartOrToken tree → tree.tokens ≠ []
  | .leaf _, _ => nofun
  | .node _ [], .inl is_part => absurd rfl is_part.children_ne_nil
  | .node _ (child :: rest), is_part => by
      have child_part := is_part.children child (.head rest)
      simp [child_part.tokens_ne_nil]

end Grammar
end WorkItemQuery
