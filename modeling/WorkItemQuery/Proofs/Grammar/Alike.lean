import WorkItemQuery.Grammar.Derivation
import WorkItemQuery.Proofs.Tree.Alike

/-!
# Derivation trees over other tokens

The grammar asks for nothing but the kinds of tokens, and so a tree that is like a derivation tree
is one.
-/

namespace WorkItemQuery
namespace Grammar

open WorkItemQuery.Tree (Alike AlikeAll)

theorem IsField.alike {tree tree' : Tree} (is_field : IsField tree) (alike : Alike tree tree') :
    IsField tree' := by
  cases is_field with
  | name name name_kind =>
      obtain _ | ⟨_ | ⟨⟨name_eq⟩, _ | _⟩⟩ := alike
      exact .name _ (name_eq.trans name_kind)

theorem IsNumber.alike {tree tree' : Tree} (is_number : IsNumber tree) (alike : Alike tree tree') :
    IsNumber tree' := by
  cases is_number with
  | plain digits digits_kind =>
      obtain _ | ⟨_ | ⟨⟨digits_eq⟩, _ | _⟩⟩ := alike
      exact .plain _ (digits_eq.trans digits_kind)
  | negative minus digits minus_kind digits_kind =>
      obtain _ | ⟨_ | ⟨⟨minus_eq⟩, _ | ⟨⟨digits_eq⟩, _ | _⟩⟩⟩ := alike
      exact .negative _ _ (minus_eq.trans minus_kind) (digits_eq.trans digits_kind)

theorem IsDate.alike {tree tree' : Tree} (is_date : IsDate tree) (alike : Alike tree tree') :
    IsDate tree' := by
  cases is_date with
  | literal text text_kind =>
      obtain _ | ⟨_ | ⟨⟨text_eq⟩, _ | _⟩⟩ := alike
      exact .literal _ (text_eq.trans text_kind)

theorem IsTerm.alike {tree tree' : Tree} (is_term : IsTerm tree) (alike : Alike tree tree') :
    IsTerm tree' := by
  cases is_term with
  | number tree is_number => exact .number _ (is_number.alike alike)
  | field tree is_field => exact .field _ (is_field.alike alike)
  | simple token mem =>
      obtain ⟨token_eq⟩ := alike
      exact .simple _ (token_eq ▸ mem)

theorem IsValue.alike {tree tree' : Tree} (is_value : IsValue tree) (alike : Alike tree tree') :
    IsValue tree' := by
  cases is_value with
  | plain term is_term =>
      obtain _ | ⟨_ | ⟨term_alike, _ | _⟩⟩ := alike
      exact .plain _ (is_term.alike term_alike)
  | shifted term sign offset is_term sign_mem is_number =>
      obtain _ | ⟨_ | ⟨term_alike, _ | ⟨⟨sign_eq⟩, _ | ⟨offset_alike, _ | _⟩⟩⟩⟩ := alike
      exact .shifted _ _ _ (is_term.alike term_alike) (sign_eq ▸ sign_mem)
        (is_number.alike offset_alike)

theorem IsChain.alike {kind : Kind} {separators : KindSet} {IsItem : List Tree → Prop}
    {tree tree' : Tree} (is_chain : IsChain kind separators IsItem tree)
    (item_alike : ∀ trees trees', IsItem trees → AlikeAll trees trees' → IsItem trees')
    (alike : Alike tree tree') : IsChain kind separators IsItem tree' := by
  induction is_chain generalizing tree' with
  | last item is_item =>
      obtain _ | ⟨items_alike⟩ := alike
      exact .last _ (item_alike _ _ is_item items_alike)
  | more item separator rest is_item mem _ ih =>
      obtain _ | ⟨children_alike⟩ := alike
      obtain ⟨item', _, rfl, items_alike, tail_alike⟩ := children_alike.exists_of_append
      obtain _ | ⟨⟨separator_eq⟩, _ | ⟨rest_alike, _ | _⟩⟩ := tail_alike
      exact .more item' _ _ (item_alike _ _ is_item items_alike) (separator_eq ▸ mem)
        (ih rest_alike)

/-- Lists of trees of one property each stay such. -/
theorem exists_of_alikeAll_single {IsTree : Tree → Prop}
    (tree_alike : ∀ tree tree', IsTree tree → Alike tree tree' → IsTree tree')
    (trees trees' : List Tree) (is_single : ∃ tree, trees = [tree] ∧ IsTree tree)
    (alike : AlikeAll trees trees') : ∃ tree, trees' = [tree] ∧ IsTree tree := by
  obtain ⟨tree, rfl, is_tree⟩ := is_single
  obtain ⟨tree', rfl, alike_tree⟩ := alike.exists_of_single
  exact ⟨tree', rfl, tree_alike tree tree' is_tree alike_tree⟩

theorem IsValueList.alike {tree tree' : Tree} (is_list : IsValueList tree)
    (alike : Alike tree tree') : IsValueList tree' :=
  IsChain.alike is_list (exists_of_alikeAll_single fun _ _ => IsValue.alike) alike

theorem IsFieldList.alike {tree tree' : Tree} (is_list : IsFieldList tree)
    (alike : Alike tree tree') : IsFieldList tree' :=
  IsChain.alike is_list (exists_of_alikeAll_single fun _ _ => IsField.alike) alike

theorem IsOptional.alike {kinds : KindSet} {trees trees' : List Tree}
    (is_optional : IsOptional kinds trees) (alike : AlikeAll trees trees') :
    IsOptional kinds trees' := by
  cases is_optional with
  | absent =>
      obtain _ | _ := alike
      exact .absent
  | present token mem =>
      obtain _ | ⟨⟨token_eq⟩, _ | _⟩ := alike
      exact .present _ (token_eq ▸ mem)

theorem IsOperatorProper.alike {tree tree' : Tree} (is_proper : IsOperatorProper tree)
    (alike : Alike tree tree') : IsOperatorProper tree' := by
  cases is_proper with
  | single token choice =>
      obtain ⟨token_eq⟩ := alike
      exact .single _ (token_eq ▸ choice)
  | containsWords contains words contains_kind words_kind =>
      obtain _ | ⟨_ | ⟨⟨contains_eq⟩, _ | ⟨⟨words_eq⟩, _ | _⟩⟩⟩ := alike
      exact .containsWords _ _ (contains_eq.trans contains_kind) (words_eq.trans words_kind)
  | inGroup word group word_kind group_kind =>
      obtain _ | ⟨_ | ⟨⟨word_eq⟩, _ | ⟨⟨group_eq⟩, _ | _⟩⟩⟩ := alike
      exact .inGroup _ _ (word_eq.trans word_kind) (group_eq.trans group_kind)

theorem IsOperator.alike {tree tree' : Tree} (is_operator : IsOperator tree)
    (alike : Alike tree tree') : IsOperator tree' := by
  cases is_operator with
  | operator negation proper is_negation is_proper =>
      obtain _ | ⟨children_alike⟩ := alike
      obtain ⟨negation', _, rfl, negation_alike, tail_alike⟩ := children_alike.exists_of_append
      obtain ⟨proper', rfl, proper_alike⟩ := tail_alike.exists_of_single
      exact .operator _ _ (is_negation.alike negation_alike) (is_proper.alike proper_alike)

/-! ## Conditions -/

theorem IsComparison.alike {trees trees' : List Tree} (is_comparison : IsComparison trees)
    (alike : AlikeAll trees trees') : IsComparison trees' := by
  cases is_comparison with
  | compare operator value is_operator is_value =>
      obtain _ | ⟨operator_alike, _ | ⟨value_alike, _ | _⟩⟩ := alike
      exact .compare _ _ (is_operator.alike operator_alike) (is_value.alike value_alike)
  | member negation word opened values closed is_negation word_kind opened_kind is_values
      closed_kind =>
      obtain ⟨negation', _, rfl, negation_alike, tail_alike⟩ := alike.exists_of_append
      obtain _ | ⟨⟨word_eq⟩, _ | ⟨⟨opened_eq⟩, _ | ⟨values_alike, _ | ⟨⟨closed_eq⟩, _ | _⟩⟩⟩⟩ :=
        tail_alike
      exact .member _ _ _ _ _ (is_negation.alike negation_alike) (word_eq.trans word_kind)
        (opened_eq.trans opened_kind) (is_values.alike values_alike) (closed_eq.trans closed_kind)

theorem IsSide.alike {tree tree' : Tree} (is_side : IsSide tree) (alike : Alike tree tree') :
    IsSide tree' := by
  cases is_side with
  | source word dot word_kind dot_kind =>
      obtain _ | ⟨_ | ⟨⟨word_eq⟩, _ | ⟨⟨dot_eq⟩, _ | _⟩⟩⟩ := alike
      exact .source _ _ (word_eq.trans word_kind) (dot_eq.trans dot_kind)
  | target word dot word_kind dot_kind =>
      obtain _ | ⟨_ | ⟨⟨word_eq⟩, _ | ⟨⟨dot_eq⟩, _ | _⟩⟩⟩ := alike
      exact .target _ _ (word_eq.trans word_kind) (dot_eq.trans dot_kind)

theorem IsOptionalSide.alike {form : Dialect} {trees trees' : List Tree}
    (is_side : IsOptionalSide form trees) (alike : AlikeAll trees trees') :
    IsOptionalSide form trees' := by
  cases is_side with
  | absent =>
      obtain _ | _ := alike
      exact .absent
  | present side has_sides is_side =>
      obtain ⟨side', rfl, side_alike⟩ := alike.exists_of_single
      exact .present _ has_sides (is_side.alike side_alike)

mutual

theorem IsCondition.alike {form : Dialect} {tree tree' : Tree} :
    IsCondition form tree → Alike tree tree' → IsCondition form tree'
  | .nested opened inner closed opened_kind is_expression closed_kind, alike => by
      obtain _ | ⟨_ | ⟨⟨opened_eq⟩, _ | ⟨inner_alike, _ | ⟨⟨closed_eq⟩, _ | _⟩⟩⟩⟩ := alike
      exact .nested _ _ _ (opened_eq.trans opened_kind) (is_expression.alike inner_alike)
        (closed_eq.trans closed_kind)
  | .leaf side field comparison is_side is_field is_comparison, alike => by
      obtain _ | ⟨children_alike⟩ := alike
      obtain ⟨side', _, rfl, side_alike, tail_alike⟩ := children_alike.exists_of_append
      obtain _ | ⟨field_alike, comparison_alike⟩ := tail_alike
      exact .leaf _ _ _ (is_side.alike side_alike) (is_field.alike field_alike)
        (is_comparison.alike comparison_alike)

theorem IsExpression.alike {form : Dialect} {tree tree' : Tree} :
    IsExpression form tree → Alike tree tree' → IsExpression form tree'
  | .last modifier condition is_modifier is_condition, alike => by
      obtain _ | ⟨children_alike⟩ := alike
      obtain ⟨modifier', _, rfl, modifier_alike, tail_alike⟩ := children_alike.exists_of_append
      obtain ⟨condition', rfl, condition_alike⟩ := tail_alike.exists_of_single
      exact .last _ _ (is_modifier.alike modifier_alike) (is_condition.alike condition_alike)
  | .more modifier condition connective rest is_modifier is_condition connective_mem
      is_expression, alike => by
      obtain _ | ⟨children_alike⟩ := alike
      obtain ⟨modifier', _, rfl, modifier_alike, tail_alike⟩ := children_alike.exists_of_append
      obtain _ | ⟨condition_alike, _ | ⟨⟨connective_eq⟩, _ | ⟨rest_alike, _ | _⟩⟩⟩ := tail_alike
      exact .more _ _ _ _ (is_modifier.alike modifier_alike) (is_condition.alike condition_alike)
        (connective_eq ▸ connective_mem) (is_expression.alike rest_alike)

end

/-! ## Queries -/

theorem IsOrderList.alike {form : Dialect} {tree tree' : Tree} (is_list : IsOrderList form tree)
    (alike : Alike tree tree') : IsOrderList form tree' := by
  refine IsChain.alike is_list ?_ alike
  rintro _ _ ⟨side, field, direction, is_side, is_field, is_direction⟩ children_alike
  obtain ⟨side', _, rfl, side_alike, tail_alike⟩ := children_alike.exists_of_append
  obtain _ | ⟨field_alike, direction_alike⟩ := tail_alike
  exact .key _ _ _ (is_side.alike side_alike) (is_field.alike field_alike)
    (is_direction.alike direction_alike)

theorem IsClause.alike {word : Kind} {IsBody : Tree → Prop} {trees trees' : List Tree}
    (is_clause : IsClause word IsBody trees)
    (body_alike : ∀ tree tree', IsBody tree → Alike tree tree' → IsBody tree')
    (alike : AlikeAll trees trees') : IsClause word IsBody trees' := by
  cases is_clause with
  | absent =>
      obtain _ | _ := alike
      exact .absent
  | present token body token_kind is_body =>
      obtain _ | ⟨⟨token_eq⟩, _ | ⟨tree_alike, _ | _⟩⟩ := alike
      exact .present _ _ (token_eq.trans token_kind) (body_alike _ _ is_body tree_alike)

theorem IsMode.alike {kind : Kind} {trees trees' : List Tree} (is_mode : IsMode kind trees)
    (alike : AlikeAll trees trees') : IsMode kind trees' := by
  cases is_mode with
  | oneHop word mem =>
      obtain _ | ⟨⟨word_eq⟩, _ | _⟩ := alike
      exact .oneHop _ (word_eq ▸ mem)
  | recursive word word_kind =>
      obtain _ | ⟨⟨word_eq⟩, _ | _⟩ := alike
      exact .recursive _ (word_eq.trans word_kind)
  | matching word comma matching word_kind comma_kind matching_kind =>
      obtain _ | ⟨⟨word_eq⟩, _ | ⟨⟨comma_eq⟩, _ | ⟨⟨matching_eq⟩, _ | _⟩⟩⟩ := alike
      exact .matching _ _ _ (word_eq.trans word_kind) (comma_eq.trans comma_kind)
        (matching_eq.trans matching_kind)

theorem IsModeClause.alike {kind : Kind} {trees trees' : List Tree}
    (is_clause : IsModeClause kind trees) (alike : AlikeAll trees trees') :
    IsModeClause kind trees' := by
  cases is_clause with
  | absent =>
      obtain _ | _ := alike
      exact .absent
  | present kind word opened inside closed word_kind opened_kind is_mode closed_kind =>
      obtain _ | ⟨⟨word_eq⟩, _ | ⟨⟨opened_eq⟩, rest_alike⟩⟩ := alike
      obtain ⟨inside', _, rfl, inside_alike, tail_alike⟩ := rest_alike.exists_of_append
      obtain _ | ⟨⟨closed_eq⟩, _ | _⟩ := tail_alike
      exact .present _ _ _ _ _ (word_eq.trans word_kind) (opened_eq.trans opened_kind)
        (is_mode.alike inside_alike) (closed_eq.trans closed_kind)

theorem IsLinkClauses.alike {kind : Kind} {trees trees' : List Tree}
    (is_clauses : IsLinkClauses kind trees) (alike : AlikeAll trees trees') :
    IsLinkClauses kind trees' := by
  cases is_clauses with
  | dateFirst date mode is_date is_mode =>
      obtain ⟨date', mode', rfl, date_alike, mode_alike⟩ := alike.exists_of_append
      exact .dateFirst _ _ _ (is_date.alike (fun _ _ => IsDate.alike) date_alike)
        (is_mode.alike mode_alike)
  | modeFirst mode date is_mode is_date =>
      obtain ⟨mode', date', rfl, mode_alike, date_alike⟩ := alike.exists_of_append
      exact .modeFirst _ _ _ (is_mode.alike mode_alike)
        (is_date.alike (fun _ _ => IsDate.alike) date_alike)

theorem IsHead.alike {source : Kind} {trees trees' : List Tree} (is_head : IsHead source trees)
    (alike : AlikeAll trees trees') : IsHead source trees' := by
  cases is_head with
  | head select fields origin place select_kind is_fields origin_kind place_kind =>
      obtain _ | ⟨⟨select_eq⟩, _ | ⟨fields_alike, _ | ⟨⟨origin_eq⟩, _ | ⟨⟨place_eq⟩, _ | _⟩⟩⟩⟩ :=
        alike
      exact .head _ _ _ _ (select_eq.trans select_kind) (is_fields.alike fields_alike)
        (origin_eq.trans origin_kind) (place_eq.trans place_kind)

theorem IsFilter.alike {form : Dialect} {trees trees' : List Tree} (is_filter : IsFilter form trees)
    (alike : AlikeAll trees trees') : IsFilter form trees' := by
  cases is_filter with
  | filter conditions order is_conditions is_order =>
      obtain ⟨conditions', order', rfl, conditions_alike, order_alike⟩ := alike.exists_of_append
      exact .filter _ _ (is_conditions.alike (fun _ _ => IsExpression.alike) conditions_alike)
        (is_order.alike (fun _ _ => IsOrderList.alike) order_alike)

/-- A head, a filter and what follows them are matched one by one. -/
theorem exists_of_front_alike {source : Kind} {form : Dialect} {head filter behind trees : List Tree}
    (is_head : IsHead source head) (is_filter : IsFilter form filter)
    (alike : AlikeAll (head ++ filter ++ behind) trees) :
    ∃ head' filter' behind', trees = head' ++ filter' ++ behind' ∧ IsHead source head' ∧
      IsFilter form filter' ∧ AlikeAll behind behind' := by
  obtain ⟨front, behind', rfl, front_alike, behind_alike⟩ := alike.exists_of_append
  obtain ⟨head', filter', rfl, head_alike, filter_alike⟩ := front_alike.exists_of_append
  exact ⟨head', filter', behind', rfl, is_head.alike head_alike, is_filter.alike filter_alike,
    behind_alike⟩

theorem IsQuery.alike {tree tree' : Tree} (is_query : IsQuery tree) (alike : Alike tree tree') :
    IsQuery tree' := by
  cases is_query with
  | flat head filter date is_head is_filter is_date =>
      obtain _ | ⟨children_alike⟩ := alike
      obtain ⟨head', filter', date', rfl, is_head', is_filter', date_alike⟩ :=
        exists_of_front_alike is_head is_filter children_alike
      exact .flat _ _ _ is_head' is_filter' (is_date.alike (fun _ _ => IsDate.alike) date_alike)
  | link kind head filter clauses is_head is_filter is_clauses =>
      obtain _ | ⟨children_alike⟩ := alike
      obtain ⟨head', filter', clauses', rfl, is_head', is_filter', clauses_alike⟩ :=
        exists_of_front_alike is_head is_filter children_alike
      exact .link _ _ _ _ is_head' is_filter' (is_clauses.alike clauses_alike)

/-- A list of tokens that spells out a sentence has a derivation tree. -/
theorem Sentence.exists_tree {tokens : List Token} (sentence : Sentence (Tree.kindsOf tokens)) :
    ∃ tree, IsQuery tree ∧ tree.tokens = tokens := by
  obtain ⟨tree, is_query, kinds_eq⟩ := sentence
  obtain ⟨tree', alike, tokens_eq⟩ := Tree.exists_alike tree kinds_eq.symm
  exact ⟨tree', is_query.alike alike, tokens_eq⟩

end Grammar
end WorkItemQuery
