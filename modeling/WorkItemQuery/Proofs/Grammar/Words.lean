import WorkItemQuery.Proofs.Grammar.Nodes
import WorkItemQuery.Proofs.Grammar.Stops
import WorkItemQuery.Proofs.Tree.Words

/-!
# The words of derivation trees

Every derivation spells out tokens of the language only, with its parentheses in pairs.  The words
that make the kind of a query stand in its head and in its mode clause only.
-/

namespace WorkItemQuery
namespace Grammar

section

variable {plain : Kind → Bool}

theorem Balanced.append {front back : List Token} (front_balanced : Balanced plain front)
    (back_balanced : Balanced plain back) : Balanced plain (front ++ back) := by
  induction front_balanced with
  | nil => exact back_balanced
  | plain token rest is_plain _ ih => exact .plain token _ is_plain ih
  | group opened inner closed rest opened_kind inner_balanced closed_kind _ _ ih =>
      rw [List.cons_append, List.append_assoc, List.cons_append]
      exact .group opened inner closed _ opened_kind inner_balanced closed_kind ih

theorem Balanced.single {token : Token} (is_plain : plain token.kind = true) :
    Balanced plain [token] :=
  .plain token [] is_plain .nil

theorem Balanced.of_mem {kinds : KindSet} (all_plain : ∀ kind, kind ∈ kinds → plain kind = true)
    {token : Token} (mem : token.kind ∈ kinds) : Balanced plain [token] :=
  .single (all_plain _ mem)

theorem Balanced.of_kind {token : Token} {kind : Kind} (token_kind : token.kind = kind)
    (is_plain : plain kind = true) : Balanced plain [token] :=
  .single (token_kind ▸ is_plain)

theorem Balanced.between {opened closed : Token} {inner : List Token}
    (opened_kind : opened.kind = .leftParen) (inner_balanced : Balanced plain inner)
    (closed_kind : closed.kind = .rightParen) : Balanced plain (opened :: (inner ++ [closed])) :=
  .group opened inner closed [] opened_kind inner_balanced closed_kind .nil

/-- What holds of the plain kinds and of parentheses holds of all kinds of a balanced word. -/
theorem Balanced.forall_mem {holds : Kind → Prop}
    (holds_plain : ∀ kind, plain kind = true → holds kind) (holds_left : holds .leftParen)
    (holds_right : holds .rightParen) {tokens : List Token} (balanced : Balanced plain tokens) :
    ∀ token ∈ tokens, holds token.kind := by
  induction balanced with
  | nil =>
      intro token mem
      cases mem
  | plain token rest is_plain _ ih =>
      intro other mem
      obtain rfl | mem := List.mem_cons.1 mem
      · exact holds_plain _ is_plain
      · exact ih other mem
  | group opened inner closed rest opened_kind _ closed_kind _ inner_ih rest_ih =>
      intro other mem
      simp only [List.mem_cons, List.mem_append] at mem
      obtain rfl | mem | rfl | mem := mem
      · rwa [opened_kind]
      · exact inner_ih other mem
      · rwa [closed_kind]
      · exact rest_ih other mem

end

/-- The words that make the kind of a query. -/
def queryWords : KindSet := .ofList [.workItemsKw, .workItemLinksKw, .modeKw, .recursiveKw]

/-- A plain token that has no part in making the kind of a query. -/
def isInner (kind : Kind) : Bool := isPlain kind && !queryWords.contains kind

theorem isPlain_of_isInner (kind : Kind) (is_inner : isInner kind = true) : isPlain kind = true := by
  rw [isInner, Bool.and_eq_true] at is_inner
  exact is_inner.1

theorem Balanced.toPlain {tokens : List Token} (balanced : Balanced isInner tokens) :
    Balanced isPlain tokens := balanced.widen isPlain_of_isInner

/-! ## Values and operators -/

theorem IsField.balanced {tree : Tree} (is_field : IsField tree) : Balanced isInner tree.tokens := by
  cases is_field with
  | name name name_kind => exact .of_kind name_kind rfl

theorem IsNumber.balanced {tree : Tree} (is_number : IsNumber tree) : Balanced isInner tree.tokens := by
  cases is_number with
  | plain digits digits_kind => exact .of_kind digits_kind rfl
  | negative minus digits minus_kind digits_kind =>
      exact (Balanced.of_kind minus_kind rfl).append (.of_kind digits_kind rfl)

theorem IsDate.balanced {tree : Tree} (is_date : IsDate tree) : Balanced isInner tree.tokens := by
  cases is_date with
  | literal text text_kind => exact .of_kind text_kind rfl

theorem IsTerm.balanced {tree : Tree} (is_term : IsTerm tree) : Balanced isInner tree.tokens := by
  cases is_term with
  | number tree is_number => exact is_number.balanced
  | field tree is_field => exact is_field.balanced
  | simple token mem => exact .of_mem (by decide) mem

theorem IsValue.balanced {tree : Tree} (is_value : IsValue tree) : Balanced isInner tree.tokens := by
  cases is_value with
  | plain term is_term => simpa using is_term.balanced
  | shifted term sign offset is_term sign_mem is_number =>
      simpa using is_term.balanced.append
        ((Balanced.of_mem (by decide) sign_mem).append is_number.balanced)

theorem IsChain.balanced {kind : Kind} {separators : KindSet} {IsItem : List Tree → Prop}
    {tree : Tree} (is_chain : IsChain kind separators IsItem tree)
    (plain_separators : ∀ kind, kind ∈ separators → isInner kind = true)
    (item_balanced : ∀ trees, IsItem trees → Balanced isInner (Tree.tokensAll trees)) :
    Balanced isInner tree.tokens := by
  induction is_chain with
  | last trees is_item => exact item_balanced trees is_item
  | more trees separator rest is_item mem _ ih =>
      simpa using (item_balanced trees is_item).append
        ((Balanced.of_mem plain_separators mem).append ih)

theorem IsOptional.balanced {kinds : KindSet} {trees : List Tree} (is_optional : IsOptional kinds trees)
    (all_plain : ∀ kind, kind ∈ kinds → isInner kind = true) : Balanced isInner (Tree.tokensAll trees) := by
  cases is_optional with
  | absent => exact .nil
  | present token mem => exact .of_mem all_plain mem

theorem IsOperatorProper.balanced {tree : Tree} (is_proper : IsOperatorProper tree) :
    Balanced isInner tree.tokens := by
  cases is_proper with
  | single token choice =>
      have kinds : ∀ kind : Kind, kind ∈ KindSet.comparisonOperators ∨ kind = .everKw ∨
          kind = .containsKw → isInner kind = true := by
        decide
      exact .single (kinds _ choice)
  | containsWords contains words contains_kind words_kind =>
      exact (Balanced.of_kind contains_kind rfl).append (.of_kind words_kind rfl)
  | inGroup word group word_kind group_kind =>
      exact (Balanced.of_kind word_kind rfl).append (.of_kind group_kind rfl)

theorem IsOperator.balanced {tree : Tree} (is_operator : IsOperator tree) :
    Balanced isInner tree.tokens := by
  cases is_operator with
  | operator negation proper is_negation is_proper =>
      simpa using (is_negation.balanced (by decide)).append is_proper.balanced

theorem IsValueList.balanced {tree : Tree} (is_list : IsValueList tree) : Balanced isInner tree.tokens := by
  refine IsChain.balanced is_list (by decide) ?_
  rintro trees ⟨value, rfl, is_value⟩
  simpa using is_value.balanced

/-! ## Conditions -/

theorem IsComparison.balanced {trees : List Tree} (is_comparison : IsComparison trees) :
    Balanced isInner (Tree.tokensAll trees) := by
  cases is_comparison with
  | compare operator value is_operator is_value =>
      simpa using is_operator.balanced.append is_value.balanced
  | member negation word opened values closed is_negation word_kind opened_kind is_values
      closed_kind =>
      simpa using (is_negation.balanced (by decide)).append
        ((Balanced.of_kind word_kind rfl).append
          (Balanced.between opened_kind is_values.balanced closed_kind))

theorem IsOptionalSide.balanced {form : Dialect} {trees : List Tree}
    (is_side : IsOptionalSide form trees) : Balanced isInner (Tree.tokensAll trees) := by
  cases is_side with
  | absent => exact .nil
  | present side _ is_side =>
      cases is_side with
      | source word dot word_kind dot_kind | target word dot word_kind dot_kind =>
          exact (Balanced.of_kind word_kind rfl).append (.of_kind dot_kind rfl)

mutual

theorem IsCondition.balanced {form : Dialect} {tree : Tree} :
    IsCondition form tree → Balanced isInner tree.tokens
  | .nested opened inner closed opened_kind is_expression closed_kind => by
      simpa using Balanced.between opened_kind is_expression.balanced closed_kind
  | .leaf side field comparison is_side is_field is_comparison => by
      simpa using is_side.balanced.append (is_field.balanced.append is_comparison.balanced)

theorem IsExpression.balanced {form : Dialect} {tree : Tree} :
    IsExpression form tree → Balanced isInner tree.tokens
  | .last modifier condition is_modifier is_condition => by
      simpa using (is_modifier.balanced (by decide)).append is_condition.balanced
  | .more modifier condition connective rest is_modifier is_condition connective_mem
      is_expression => by
      simpa using (is_modifier.balanced (by decide)).append
        (is_condition.balanced.append
          ((Balanced.of_mem (by decide) connective_mem).append is_expression.balanced))

end

/-! ## Queries -/

theorem IsFieldList.balanced {tree : Tree} (is_list : IsFieldList tree) : Balanced isInner tree.tokens := by
  refine IsChain.balanced is_list (by decide) ?_
  rintro trees ⟨field, rfl, is_field⟩
  simpa using is_field.balanced

theorem IsOrderList.balanced {form : Dialect} {tree : Tree} (is_list : IsOrderList form tree) :
    Balanced isInner tree.tokens := by
  refine IsChain.balanced is_list (by decide) ?_
  rintro trees ⟨side, field, direction, is_side, is_field, is_direction⟩
  simpa using is_side.balanced.append
    (is_field.balanced.append (is_direction.balanced (by decide)))

theorem IsClause.balanced {word : Kind} {IsBody : Tree → Prop} {trees : List Tree}
    (is_clause : IsClause word IsBody trees) (word_inner : isInner word = true)
    (body_balanced : ∀ tree, IsBody tree → Balanced isInner tree.tokens) :
    Balanced isInner (Tree.tokensAll trees) := by
  cases is_clause with
  | absent => exact .nil
  | present token body token_kind is_body =>
      simpa using (Balanced.of_kind token_kind word_inner).append (body_balanced body is_body)

theorem balanced_dateClause {trees : List Tree} (is_date : IsClause .asofKw IsDate trees) :
    Balanced isInner (Tree.tokensAll trees) :=
  is_date.balanced (by decide) fun _ => IsDate.balanced

theorem IsMode.balanced {kind : Kind} {trees : List Tree} (is_mode : IsMode kind trees) :
    Balanced isPlain (Tree.tokensAll trees) := by
  cases is_mode with
  | oneHop word mem => exact .of_mem (by decide) mem
  | recursive word word_kind => exact .of_kind word_kind rfl
  | matching word comma matching word_kind comma_kind matching_kind =>
      exact (Balanced.of_kind word_kind rfl).append
        ((Balanced.of_kind comma_kind rfl).append (.of_kind matching_kind rfl))

theorem IsModeClause.balanced {kind : Kind} {trees : List Tree}
    (is_clause : IsModeClause kind trees) : Balanced isPlain (Tree.tokensAll trees) := by
  cases is_clause with
  | absent => exact .nil
  | present kind word opened inside closed word_kind opened_kind is_mode closed_kind =>
      simpa using (Balanced.of_kind word_kind rfl).append
        (Balanced.between opened_kind is_mode.balanced closed_kind)

theorem IsLinkClauses.balanced {kind : Kind} {trees : List Tree}
    (is_clauses : IsLinkClauses kind trees) : Balanced isPlain (Tree.tokensAll trees) := by
  cases is_clauses with
  | dateFirst date mode is_date is_mode =>
      simpa using (balanced_dateClause is_date).toPlain.append is_mode.balanced
  | modeFirst mode date is_mode is_date =>
      simpa using is_mode.balanced.append (balanced_dateClause is_date).toPlain

theorem IsHead.balanced {source : Kind} {trees : List Tree} (is_head : IsHead source trees)
    (source_plain : isPlain source = true) : Balanced isPlain (Tree.tokensAll trees) := by
  cases is_head with
  | head select fields origin place select_kind is_fields origin_kind place_kind =>
      simpa using (Balanced.of_kind select_kind rfl).append
        (is_fields.balanced.toPlain.append
          ((Balanced.of_kind origin_kind rfl).append (.of_kind place_kind source_plain)))

theorem IsFilter.balanced {form : Dialect} {trees : List Tree} (is_filter : IsFilter form trees) :
    Balanced isInner (Tree.tokensAll trees) := by
  cases is_filter with
  | filter conditions order is_conditions is_order =>
      simpa using (is_conditions.balanced (by decide) fun _ => IsExpression.balanced).append
        (is_order.balanced (by decide) fun _ => IsOrderList.balanced)

theorem IsQuery.balanced {tree : Tree} (is_query : IsQuery tree) :
    Balanced isPlain tree.tokens := by
  cases is_query with
  | flat head filter date is_head is_filter is_date =>
      simpa using (is_head.balanced (by decide)).append
        (is_filter.balanced.append (balanced_dateClause is_date)).toPlain
  | link kind head filter clauses is_head is_filter is_clauses =>
      simpa using (is_head.balanced (by decide)).append
        (is_filter.balanced.toPlain.append is_clauses.balanced)

end Grammar
end WorkItemQuery
