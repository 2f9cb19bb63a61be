import WorkItemQuery.Proofs.Grammar.Nodes
import WorkItemQuery.Proofs.Tree.Written

/-!
# Derivation trees as texts

The layout of a derivation tree is read as the tokens of the tree, rule by rule.  Behind a side of a
link anything may follow; what ends with a name has to stand apart from the next word.
-/

namespace WorkItemQuery

open Lexer
open WorkItemQuery.Tree (layoutAll tokensAll tightNodes opening closing)

namespace Grammar

/-! ## Fields and values -/

theorem IsField.written {tree : Tree} (is_field : IsField tree)
    (lexed : ∀ token ∈ tree.tokens, IsLexed token) : Written Apart tree.layout tree.tokens := by
  cases is_field with
  | name name name_kind => exact WrittenAll.single (written_name (lexed name (.head _)) name_kind)

theorem IsNumber.written {tree : Tree} (is_number : IsNumber tree)
    (lexed : ∀ token ∈ tree.tokens, IsLexed token) : Written Ends tree.layout tree.tokens := by
  cases is_number with
  | plain digits digits_kind =>
      exact WrittenAll.single (written_literal (lexed digits (.head _)) (.inl digits_kind))
  | negative minus digits minus_kind digits_kind =>
      refine WrittenAll.tight (.inl (by decide)) (written_selfClosing ?_) (WrittenAll.single ?_)
      · rw [minus_kind]
        decide
      · exact written_literal (lexed digits (.tail _ (.head _))) (.inl digits_kind)

theorem IsDate.written {tree : Tree} (is_date : IsDate tree)
    (lexed : ∀ token ∈ tree.tokens, IsLexed token) : Written Ends tree.layout tree.tokens := by
  cases is_date with
  | literal text text_kind =>
      exact WrittenAll.single (written_literal (lexed text (.head _)) (.inr (.inl text_kind)))

theorem IsTerm.written {tree : Tree} (is_term : IsTerm tree)
    (lexed : ∀ token ∈ tree.tokens, IsLexed token) : Written Apart tree.layout tree.tokens := by
  cases is_term with
  | number tree is_number => exact (is_number.written lexed).of_ends
  | field tree is_field => exact is_field.written lexed
  | simple token mem =>
      have kinds : ∀ kind ∈ simpleTerms, kind ∈ fixedTexts ∨ kind = .string ∨
          kind = .variableRef := by
        decide
      apply Written.of_ends
      obtain fixed | literal := kinds _ mem
      · exact written_fixed fixed
      · exact written_literal (lexed token (.head _)) (.inr literal)

theorem IsTerm.notMem_opening {tree : Tree} (is_term : IsTerm tree) : tree.kind ∉ opening := by
  have not_simple : ∀ kind ∈ simpleTerms, kind ∉ opening := by decide
  obtain kind_eq | kind_eq | mem := is_term.kind_mem
  · rw [kind_eq]
    decide
  · rw [kind_eq]
    decide
  · exact not_simple _ mem

theorem IsValue.written {tree : Tree} (is_value : IsValue tree)
    (lexed : ∀ token ∈ tree.tokens, IsLexed token) : Written Apart tree.layout tree.tokens := by
  cases is_value with
  | plain term is_term =>
      refine WrittenAll.single (is_term.written fun token mem => lexed token ?_)
      exact List.mem_append_left _ mem
  | shifted term sign offset is_term sign_mem is_number =>
      have signs : ∀ kind ∈ KindSet.plusMinus, kind ∈ fixedTexts ∧ kind ∉ opening ∧
          kind ∉ closing := by
        decide
      obtain ⟨sign_fixed, sign_not_opening, sign_not_closing⟩ := signs _ sign_mem
      simp only [Tree.tokens_node, Tree.tokensAll_cons, List.forall_mem_append] at lexed
      obtain ⟨term_lexed, -, offset_lexed, -⟩ := lexed
      have offset_not_closing : offset.kind ∉ closing := by
        rw [is_number.kind_eq]
        decide
      exact WrittenAll.apart (by decide) (is_term.written term_lexed) is_term.notMem_opening sign_not_closing
        (startsFixed_layoutAll sign_fixed _ _)
        (.spaced (by decide) (written_fixed sign_fixed) sign_not_opening offset_not_closing
          (.single (is_number.written offset_lexed).of_ends))

/-! ## Lists -/

theorem IsChain.written {kind : Kind} {IsItem : List Tree → Prop} {tree : Tree}
    (is_chain : IsChain kind (.single .comma) IsItem tree) (loose : kind ∉ tightNodes)
    (not_closing : kind ∉ closing)
    (item_written : ∀ trees, IsItem trees → (∀ token ∈ tokensAll trees, IsLexed token) →
      trees ≠ [] ∧ WrittenAll Apart kind trees)
    (lexed : ∀ token ∈ tree.tokens, IsLexed token) : Written Apart tree.layout tree.tokens := by
  induction is_chain with
  | last item is_item => exact (item_written item is_item lexed).2
  | more item separator rest is_item is_comma is_rest ih =>
      have commas : ∀ kind ∈ KindSet.single .comma, kind ∈ fixedTexts ∧ kind ∉ opening ∧
          kind ∈ closing := by
        decide
      obtain ⟨comma_fixed, comma_not_opening, comma_closing⟩ := commas _ is_comma
      simp only [Tree.tokens_node, Tree.tokensAll_append, Tree.tokensAll_cons,
        List.forall_mem_append] at lexed
      obtain ⟨item_lexed, -, rest_lexed, -⟩ := lexed
      obtain ⟨not_nil, first⟩ := item_written item is_item item_lexed
      have rest_not_closing : rest.kind ∉ closing := by rwa [is_rest.kind_eq]
      exact WrittenAll.append_closing not_nil first comma_closing
        (.spaced loose (written_fixed comma_fixed) comma_not_opening rest_not_closing
          (.single (ih rest_lexed)))

theorem IsFieldList.written {tree : Tree} (is_list : IsFieldList tree)
    (lexed : ∀ token ∈ tree.tokens, IsLexed token) : Written Apart tree.layout tree.tokens := by
  refine IsChain.written is_list (by decide) (by decide) ?_ lexed
  rintro _ ⟨field, rfl, is_field⟩ lexed
  simp only [Tree.tokensAll_cons, List.forall_mem_append] at lexed
  exact ⟨nofun, .single (is_field.written lexed.1)⟩

theorem IsValueList.written {tree : Tree} (is_list : IsValueList tree)
    (lexed : ∀ token ∈ tree.tokens, IsLexed token) : Written Apart tree.layout tree.tokens := by
  refine IsChain.written is_list (by decide) (by decide) ?_ lexed
  rintro _ ⟨value, rfl, is_value⟩ lexed
  simp only [Tree.tokensAll_cons, List.forall_mem_append] at lexed
  exact ⟨nofun, .single (is_value.written lexed.1)⟩

/-! ## Conditions -/

theorem IsOptional.written {kinds : KindSet} {trees rest : List Tree} {parent : Kind} {next : Tree}
    (is_optional : IsOptional kinds trees) (loose : parent ∉ tightNodes)
    (words : ∀ kind ∈ kinds, kind ∈ fixedTexts ∧ kind ∉ opening) (not_closing : next.kind ∉ closing)
    (written : WrittenAll Apart parent (next :: rest)) :
    WrittenAll Apart parent (trees ++ next :: rest) := by
  cases is_optional with
  | absent => exact written
  | present token mem =>
      obtain ⟨fixed, not_opening⟩ := words _ mem
      exact .spaced loose (written_fixed fixed) not_opening not_closing written

theorem IsOperatorProper.written {tree : Tree} (is_proper : IsOperatorProper tree) :
    StartsFixed tree.layout ∧ Written Ends tree.layout tree.tokens := by
  cases is_proper with
  | single token choice =>
      have operators : ∀ kind : Kind, kind ∈ KindSet.comparisonOperators ∨ kind = .everKw ∨
          kind = .containsKw → kind ∈ fixedTexts := by
        decide
      have fixed := operators _ choice
      exact ⟨startsFixed_token fixed, written_fixed fixed⟩
  | containsWords contains words contains_kind words_kind =>
      have contains_fixed : contains.kind ∈ fixedTexts ∧ contains.kind ∉ opening := by
        rw [contains_kind]
        decide
      have words_fixed : words.kind ∈ fixedTexts ∧ words.kind ∉ closing := by
        rw [words_kind]
        decide
      exact ⟨startsFixed_layoutAll contains_fixed.1 ..,
        WrittenAll.spaced (by decide) (written_fixed contains_fixed.1) contains_fixed.2
          words_fixed.2 (.single (written_fixed words_fixed.1))⟩
  | inGroup word group word_kind group_kind =>
      have word_fixed : word.kind ∈ fixedTexts ∧ word.kind ∉ opening := by
        rw [word_kind]
        decide
      have group_fixed : group.kind ∈ fixedTexts ∧ group.kind ∉ closing := by
        rw [group_kind]
        decide
      exact ⟨startsFixed_layoutAll word_fixed.1 ..,
        WrittenAll.spaced (by decide) (written_fixed word_fixed.1) word_fixed.2 group_fixed.2
          (.single (written_fixed group_fixed.1))⟩

theorem IsOperator.written {tree : Tree} (is_operator : IsOperator tree) :
    StartsFixed tree.layout ∧ Written Ends tree.layout tree.tokens := by
  cases is_operator with
  | operator negation proper is_negation is_proper =>
      obtain ⟨starts, written⟩ := is_proper.written
      cases is_negation with
      | absent => exact ⟨by simpa using starts, WrittenAll.single written⟩
      | present token mem =>
          have words : ∀ kind ∈ KindSet.single .notKw, kind ∈ fixedTexts ∧ kind ∉ opening := by
            decide
          have not_closing : ∀ kind ∈ KindSet.conditionTokens, kind ∉ closing := by decide
          obtain ⟨fixed, not_opening⟩ := words _ mem
          exact ⟨startsFixed_layoutAll fixed .operator [proper],
            WrittenAll.spaced (by decide) (written_fixed fixed) not_opening
              (not_closing _ is_proper.kind_mem) (.single written)⟩

theorem written_member {parent : Kind} (loose : parent ∉ tightNodes) {word opened closed : Token}
    {values : Tree} (word_kind : word.kind = .inKw) (opened_kind : opened.kind = .leftParen)
    (is_values : IsValueList values) (closed_kind : closed.kind = .rightParen)
    (lexed : ∀ token ∈ values.tokens, IsLexed token) :
    WrittenAll Apart parent [.leaf word, .leaf opened, values, .leaf closed] := by
  have word_fixed : word.kind ∈ fixedTexts ∧ word.kind ∉ opening := by
    rw [word_kind]
    decide
  have opened_opens : opened.kind ∈ opening ∧ opened.kind ∉ closing ∧
      opened.kind ∈ selfClosing := by
    rw [opened_kind]
    decide
  have closed_closes : closed.kind ∈ closing ∧ closed.kind ∈ fixedTexts := by
    rw [closed_kind]
    decide
  exact .spaced loose (written_fixed word_fixed.1) word_fixed.2 opened_opens.2.1
    (.tight (.inr opened_opens.1) (written_selfClosing opened_opens.2.2)
      (.closing (is_values.written lexed) closed_closes.1
        (.single (written_fixed closed_closes.2).of_ends)))

theorem IsComparison.written {parent : Kind} (loose : parent ∉ tightNodes) {field : Tree}
    {comparison : List Tree} (is_field : IsField field) (is_comparison : IsComparison comparison)
    (lexed : ∀ token ∈ tokensAll (field :: comparison), IsLexed token) :
    WrittenAll Apart parent (field :: comparison) := by
  have field_not_opening : field.kind ∉ opening := by
    rw [is_field.kind_eq]
    decide
  have nots : ∀ kind ∈ KindSet.single .notKw, kind ∈ fixedTexts ∧ kind ∉ opening ∧
      kind ∉ closing := by
    decide
  cases is_comparison with
  | compare operator value is_operator is_value =>
      have operator_loose : operator.kind ∉ opening ∧ operator.kind ∉ closing := by
        rw [is_operator.kind_eq]
        decide
      have value_not_closing : value.kind ∉ closing := by
        rw [is_value.kind_eq]
        decide
      simp only [Tree.tokensAll_cons, List.forall_mem_append] at lexed
      obtain ⟨field_lexed, -, value_lexed, -⟩ := lexed
      obtain ⟨starts, operator_written⟩ := is_operator.written
      exact .apart loose (is_field.written field_lexed) field_not_opening operator_loose.2
        (starts.append _)
        (.spaced loose operator_written operator_loose.1 value_not_closing
          (.single (is_value.written value_lexed)))
  | member negation word opened values closed is_negation word_kind opened_kind is_values
      closed_kind =>
      have word_fixed : word.kind ∈ fixedTexts ∧ word.kind ∉ closing := by
        rw [word_kind]
        decide
      simp only [Tree.tokensAll_cons, Tree.tokensAll_append, List.forall_mem_append] at lexed
      obtain ⟨field_lexed, -, -, -, values_lexed, -⟩ := lexed
      have member_written := written_member loose word_kind opened_kind is_values closed_kind
        values_lexed
      cases is_negation with
      | absent =>
          exact .apart loose (is_field.written field_lexed) field_not_opening word_fixed.2
            (startsFixed_layoutAll word_fixed.1 ..) member_written
      | present token mem =>
          obtain ⟨fixed, not_opening, not_closing⟩ := nots _ mem
          exact .apart loose (is_field.written field_lexed) field_not_opening not_closing
            (startsFixed_layoutAll fixed ..)
            (.spaced loose (written_fixed fixed) not_opening word_fixed.2 member_written)

theorem IsSide.written {tree : Tree} (is_side : IsSide tree) :
    Written Anything tree.layout tree.tokens := by
  have marks : ∀ kind : Kind, kind = .sourceKw ∨ kind = .targetKw ∨ kind = .dot →
      kind ∈ selfClosing := by
    decide
  cases is_side with
  | source word dot word_kind dot_kind =>
      exact WrittenAll.tight (.inl (by decide)) (written_selfClosing (marks _ (.inl word_kind)))
        (.single (written_selfClosing (marks _ (.inr (.inr dot_kind)))))
  | target word dot word_kind dot_kind =>
      exact WrittenAll.tight (.inl (by decide))
        (written_selfClosing (marks _ (.inr (.inl word_kind))))
        (.single (written_selfClosing (marks _ (.inr (.inr dot_kind)))))

theorem IsOptionalSide.written {form : Dialect} {side rest : List Tree} {parent : Kind}
    {next : Tree} (is_side : IsOptionalSide form side)
    (written : WrittenAll Apart parent (next :: rest)) :
    WrittenAll Apart parent (side ++ next :: rest) := by
  cases is_side with
  | absent => exact written
  | present side _ is_side =>
      have opens : ∀ kind ∈ KindSet.sideNode, kind ∈ opening := by decide
      exact .tight (.inr (opens _ is_side.kind_mem)) is_side.written written

/-- Conditions stand in nodes with blanks. -/
theorem IsForm.kinds {form : Dialect} (is_form : IsForm form) :
    (form.condition ∉ tightNodes ∧ form.condition ∉ opening ∧ form.condition ∉ closing) ∧
      form.expression ∉ tightNodes ∧ form.expression ∉ closing := by
  obtain rfl | rfl := is_form <;> decide

mutual

theorem IsCondition.written {form : Dialect} {tree : Tree} (is_form : IsForm form) :
    IsCondition form tree → (∀ token ∈ tree.tokens, IsLexed token) →
    Written Apart tree.layout tree.tokens
  | .nested opened inner closed opened_kind is_expression closed_kind, lexed => by
      have opened_opens : opened.kind ∈ opening ∧ opened.kind ∈ selfClosing := by
        rw [opened_kind]
        decide
      have closed_closes : closed.kind ∈ closing ∧ closed.kind ∈ fixedTexts := by
        rw [closed_kind]
        decide
      simp only [Tree.tokens_node, Tree.tokensAll_cons, List.forall_mem_append] at lexed
      obtain ⟨-, inner_lexed, -⟩ := lexed
      exact WrittenAll.tight (.inr opened_opens.1) (written_selfClosing opened_opens.2)
        (.closing (is_expression.written is_form inner_lexed) closed_closes.1
          (.single (written_fixed closed_closes.2).of_ends))
  | .leaf side field comparison is_side is_field is_comparison, lexed => by
      rw [Tree.tokens_node, Tree.tokensAll_append, List.forall_mem_append] at lexed
      exact is_side.written (is_comparison.written is_form.kinds.1.1 is_field lexed.2)

theorem IsExpression.written {form : Dialect} {tree : Tree} (is_form : IsForm form) :
    IsExpression form tree → (∀ token ∈ tree.tokens, IsLexed token) →
    Written Apart tree.layout tree.tokens
  | .last modifier condition is_modifier is_condition, lexed => by
      have words : ∀ kind ∈ KindSet.everNot, kind ∈ fixedTexts ∧ kind ∉ opening := by decide
      simp only [Tree.tokens_node, Tree.tokensAll_cons, Tree.tokensAll_append,
        List.forall_mem_append] at lexed
      obtain ⟨-, condition_lexed, -⟩ := lexed
      obtain ⟨⟨-, -, not_closing⟩, loose, -⟩ := is_form.kinds
      rw [← is_condition.kind_eq] at not_closing
      exact is_modifier.written loose words not_closing
        (.single (is_condition.written is_form condition_lexed))
  | .more modifier condition connective rest is_modifier is_condition mem is_rest, lexed => by
      have words : ∀ kind ∈ KindSet.everNot, kind ∈ fixedTexts ∧ kind ∉ opening := by decide
      have connectives : ∀ kind ∈ KindSet.andOr, kind ∈ fixedTexts ∧ kind ∉ opening ∧
          kind ∉ closing := by
        decide
      obtain ⟨fixed, word_not_opening, word_not_closing⟩ := connectives _ mem
      simp only [Tree.tokens_node, Tree.tokensAll_cons, Tree.tokensAll_append,
        List.forall_mem_append] at lexed
      obtain ⟨-, condition_lexed, -, rest_lexed, -⟩ := lexed
      obtain ⟨⟨-, not_opening, not_closing⟩, loose, rest_not_closing⟩ := is_form.kinds
      rw [← is_condition.kind_eq] at not_opening not_closing
      rw [← is_rest.kind_eq] at rest_not_closing
      exact is_modifier.written loose words not_closing
        (.apart loose (is_condition.written is_form condition_lexed) not_opening word_not_closing
          (startsFixed_layoutAll fixed ..)
          (.spaced loose (written_fixed fixed) word_not_opening rest_not_closing
            (.single (is_rest.written is_form rest_lexed))))

end

/-! ## Sort keys -/

theorem IsOrderList.written {form : Dialect} {tree : Tree} (is_form : IsForm form)
    (is_list : IsOrderList form tree) (lexed : ∀ token ∈ tree.tokens, IsLexed token) :
    Written Apart tree.layout tree.tokens := by
  have loose : form.order ∉ tightNodes ∧ form.order ∉ closing := by
    obtain rfl | rfl := is_form <;> decide
  refine IsChain.written is_list loose.1 loose.2 ?_ lexed
  rintro _ ⟨side, field, direction, is_side, is_field, is_direction⟩ lexed
  simp only [Tree.tokensAll_append, Tree.tokensAll_cons, List.forall_mem_append] at lexed
  obtain ⟨-, field_lexed, -⟩ := lexed
  refine ⟨by simp, is_side.written ?_⟩
  cases is_direction with
  | absent => exact .single (is_field.written field_lexed)
  | present token mem =>
      have directions : ∀ kind ∈ KindSet.ascDesc, kind ∈ fixedTexts ∧ kind ∉ closing := by decide
      obtain ⟨fixed, not_closing⟩ := directions _ mem
      have not_opening : field.kind ∉ opening := by
        rw [is_field.kind_eq]
        decide
      exact .apart loose.1 (is_field.written field_lexed) not_opening not_closing
        (startsFixed_layoutAll fixed ..) (.single (written_fixed fixed).of_ends)

/-! ## Clauses -/

/-- The last children of a query may stand behind its others. -/
structure Trailing (parent : Kind) (trees : List Tree) : Prop where
  /-- They do not begin with what closes. -/
  starts : Tree.StartsLoose trees
  /-- They stand apart from a word before them. -/
  apart : Apart (Tree.layoutBehind parent trees)
  /-- Their layout is read as their tokens. -/
  scans : Scans (Tree.layoutBehind parent trees)
    ((tokensAll trees).map Token.canonicalSpelling)

section

variable {parent : Kind} {rest : List Tree}

theorem Trailing.nil (parent : Kind) : Trailing parent [] := ⟨nofun, apart_nil, .nil⟩

/-- More children stand before the last ones. -/
theorem Trailing.begins {trees : List Tree} {last : Tree} (loose : parent ∉ tightNodes)
    (written : WrittenAll Apart parent trees) (last_eq : trees.getLast? = some last)
    (not_opening : last.kind ∉ opening) (trailing : Trailing parent rest) :
    Begins (layoutAll parent (trees ++ rest))
      ((tokensAll (trees ++ rest)).map Token.canonicalSpelling) := by
  rw [Tree.layoutAll_append_loose loose last_eq not_opening trailing.starts,
    Tree.tokensAll_append, List.map_append]
  exact written _ _ trailing.apart trailing.scans

theorem Trailing.append {word : Token} {trees : List Tree} {last : Tree}
    (loose : parent ∉ tightNodes) (written : WrittenAll Apart parent (.leaf word :: trees))
    (fixed : word.kind ∈ fixedTexts) (not_closing : word.kind ∉ closing)
    (last_eq : (Tree.leaf word :: trees).getLast? = some last) (not_opening : last.kind ∉ opening)
    (trailing : Trailing parent rest) : Trailing parent (.leaf word :: trees ++ rest) where
  starts := by
    rintro _ ⟨⟩
    exact not_closing
  apart := apart_blank (startsFixed_layoutAll fixed ..)
  scans := (trailing.begins loose written last_eq not_opening).blank

theorem IsClause.trailing {word : Kind} {IsBody : Tree → Prop} {clause : List Tree}
    (loose : parent ∉ tightNodes) (is_clause : IsClause word IsBody clause)
    (fixed : word ∈ fixedTexts ∧ word ∉ opening ∧ word ∉ closing)
    (body_kinds : ∀ tree, IsBody tree → tree.kind ∉ opening ∧ tree.kind ∉ closing)
    (body_written : ∀ tree, IsBody tree → (∀ token ∈ tree.tokens, IsLexed token) →
      Written Apart tree.layout tree.tokens)
    (lexed : ∀ token ∈ tokensAll clause, IsLexed token) (trailing : Trailing parent rest) :
    Trailing parent (clause ++ rest) := by
  cases is_clause with
  | absent => exact trailing
  | present token body token_kind is_body =>
      simp only [Tree.tokensAll_cons, List.forall_mem_append] at lexed
      obtain ⟨-, body_lexed, -⟩ := lexed
      rw [← token_kind] at fixed
      obtain ⟨token_fixed, not_opening, not_closing⟩ := fixed
      obtain ⟨body_not_opening, body_not_closing⟩ := body_kinds body is_body
      have written := body_written body is_body body_lexed
      exact .append loose
        (.spaced loose (written_fixed token_fixed) not_opening body_not_closing (.single written))
        token_fixed not_closing rfl body_not_opening trailing

theorem IsClause.trailing_date {date : List Tree} (loose : parent ∉ tightNodes)
    (is_clause : IsClause .asofKw IsDate date) (lexed : ∀ token ∈ tokensAll date, IsLexed token)
    (trailing : Trailing parent rest) : Trailing parent (date ++ rest) := by
  refine is_clause.trailing loose (by decide) ?_ ?_ lexed trailing
  · intro tree is_date
    rw [is_date.kind_eq]
    decide
  · intro tree is_date date_lexed
    exact (is_date.written date_lexed).of_ends

theorem IsFilter.trailing {form : Dialect} {filter : List Tree} (is_form : IsForm form)
    (loose : parent ∉ tightNodes) (is_filter : IsFilter form filter)
    (lexed : ∀ token ∈ tokensAll filter, IsLexed token) (trailing : Trailing parent rest) :
    Trailing parent (filter ++ rest) := by
  have bodies : (form.expression ∉ opening ∧ form.expression ∉ closing) ∧
      form.order ∉ opening ∧ form.order ∉ closing := by
    obtain rfl | rfl := is_form <;> decide
  cases is_filter with
  | filter conditions order is_conditions is_order =>
      rw [Tree.tokensAll_append, List.forall_mem_append] at lexed
      obtain ⟨conditions_lexed, order_lexed⟩ := lexed
      rw [List.append_assoc]
      refine is_conditions.trailing loose (by decide) ?_ ?_ conditions_lexed ?_
      · intro tree is_expression
        rw [is_expression.kind_eq]
        exact bodies.1
      · intro tree is_expression
        exact is_expression.written is_form
      · refine is_order.trailing loose (by decide) ?_ ?_ order_lexed trailing
        · intro tree is_list
          rw [IsChain.kind_eq is_list]
          exact bodies.2
        · intro tree is_list
          exact is_list.written is_form

theorem IsMode.written {kind : Kind} {inside : List Tree} {closed : Token}
    (loose : parent ∉ tightNodes) (is_mode : IsMode kind inside)
    (closed_kind : closed.kind = .rightParen) :
    WrittenAll Apart parent (inside ++ [.leaf closed]) := by
  have modes : ∀ kind : Kind, kind ∈ KindSet.linkMode ∨ kind = .recursiveKw ∨
      kind = .matchingChildrenKw → kind ∈ fixedTexts ∧ kind ∉ closing := by
    decide
  have closed_closes : closed.kind ∈ closing ∧ closed.kind ∈ fixedTexts := by
    rw [closed_kind]
    decide
  have written_closed : WrittenAll Apart parent [.leaf closed] :=
    .single (written_fixed closed_closes.2).of_ends
  cases is_mode with
  | oneHop word mem =>
      exact .closing (written_fixed (modes _ (.inl mem)).1).of_ends closed_closes.1 written_closed
  | recursive word word_kind =>
      exact .closing (written_fixed (modes _ (.inr (.inl word_kind))).1).of_ends closed_closes.1
        written_closed
  | matching word comma matching word_kind comma_kind matching_kind =>
      have comma_closes : comma.kind ∈ closing ∧ comma.kind ∈ fixedTexts ∧
          comma.kind ∉ opening := by
        rw [comma_kind]
        decide
      obtain ⟨matching_fixed, not_closing⟩ := modes _ (.inr (.inr matching_kind))
      exact .closing (written_fixed (modes _ (.inr (.inl word_kind))).1).of_ends comma_closes.1
        (.spaced loose (written_fixed comma_closes.2.1) comma_closes.2.2 not_closing
          (.closing (written_fixed matching_fixed).of_ends closed_closes.1 written_closed))

theorem IsModeClause.trailing {kind : Kind} {clause : List Tree} (loose : parent ∉ tightNodes)
    (is_clause : IsModeClause kind clause) : Trailing parent clause := by
  cases is_clause with
  | absent => exact .nil parent
  | present kind word opened inside closed word_kind opened_kind is_mode closed_kind =>
      have word_fixed : word.kind ∈ fixedTexts ∧ word.kind ∉ opening ∧ word.kind ∉ closing := by
        rw [word_kind]
        decide
      have opened_opens : opened.kind ∈ opening ∧ opened.kind ∉ closing ∧
          opened.kind ∈ selfClosing := by
        rw [opened_kind]
        decide
      have closed_not_opening : closed.kind ∉ opening := by
        rw [closed_kind]
        decide
      have inside_written := is_mode.written loose closed_kind
      obtain ⟨next, tail, inside_eq⟩ : ∃ next tail, inside ++ [.leaf closed] = next :: tail :=
        List.exists_cons_of_ne_nil (by simp)
      have written : WrittenAll Apart parent
          (.leaf word :: .leaf opened :: (inside ++ [.leaf closed])) := by
        rw [inside_eq] at inside_written ⊢
        exact .spaced loose (written_fixed word_fixed.1) word_fixed.2.1 opened_opens.2.1
          (.tight (.inr opened_opens.1) (written_selfClosing opened_opens.2.2) inside_written)
      have last_eq : (Tree.leaf word :: .leaf opened :: (inside ++ [.leaf closed])).getLast? =
          some (.leaf closed) := by
        simp [List.getLast?_cons]
      have trailing := Trailing.append loose written word_fixed.1 word_fixed.2.2 last_eq
        closed_not_opening (.nil parent)
      rwa [List.append_nil] at trailing

/-! ## Queries -/

theorem IsHead.begins {source : Kind} {head : List Tree} (loose : parent ∉ tightNodes)
    (is_head : IsHead source head) (is_source : source = .workItemsKw ∨ source = .workItemLinksKw)
    (lexed : ∀ token ∈ tokensAll head, IsLexed token) (trailing : Trailing parent rest) :
    Begins (layoutAll parent (head ++ rest))
      ((tokensAll (head ++ rest)).map Token.canonicalSpelling) := by
  have words : ∀ kind : Kind, kind = .selectKw ∨ kind = .fromKw ∨ kind = .workItemsKw ∨
      kind = .workItemLinksKw → kind ∈ fixedTexts ∧ kind ∉ opening ∧ kind ∉ closing := by
    decide
  cases is_head with
  | head select fields origin place select_kind is_list origin_kind place_kind =>
      obtain ⟨select_fixed, select_not_opening, -⟩ := words _ (.inl select_kind)
      obtain ⟨origin_fixed, origin_not_opening, origin_not_closing⟩ :=
        words _ (.inr (.inl origin_kind))
      obtain ⟨place_fixed, place_not_opening, place_not_closing⟩ :
          place.kind ∈ fixedTexts ∧ place.kind ∉ opening ∧ place.kind ∉ closing := by
        rw [← place_kind] at is_source
        exact words _ (.inr (.inr is_source))
      have fields_kinds : fields.kind ∉ opening ∧ fields.kind ∉ closing := by
        rw [IsChain.kind_eq is_list]
        decide
      simp only [Tree.tokensAll_cons, List.forall_mem_append] at lexed
      obtain ⟨-, fields_lexed, -⟩ := lexed
      refine trailing.begins loose ?_ rfl place_not_opening
      exact .spaced loose (written_fixed select_fixed) select_not_opening fields_kinds.2
        (.apart loose (is_list.written fields_lexed) fields_kinds.1 origin_not_closing
          (startsFixed_layoutAll origin_fixed ..)
          (.spaced loose (written_fixed origin_fixed) origin_not_opening place_not_closing
            (.single (written_fixed place_fixed).of_ends)))

end

/-- A query whose date, if it has one, stands before its mode. -/
inductive IsDateFirst : Tree → Prop where
  | flat (head filter date : List Tree) : IsHead .workItemsKw head → IsFilter .flat filter →
      IsClause .asofKw IsDate date → IsDateFirst (.node .flatSelect (head ++ filter ++ date))
  | link (kind : Kind) (head filter date mode : List Tree) : IsHead .workItemLinksKw head →
      IsFilter .link filter → IsClause .asofKw IsDate date → IsModeClause kind mode →
      IsDateFirst (.node kind (head ++ filter ++ (date ++ mode)))

/-- The layout of a query with its date first is read as its tokens. -/
theorem IsDateFirst.scans {root : Tree} (is_query : IsDateFirst root)
    (lexed : ∀ token ∈ root.tokens, IsLexed token) :
    Scans root.layout (root.tokens.map Token.canonicalSpelling) := by
  cases is_query with
  | flat head filter date is_head is_filter is_date =>
      simp only [Tree.tokens_node, Tree.tokensAll_append, List.forall_mem_append] at lexed
      obtain ⟨⟨head_lexed, filter_lexed⟩, date_lexed⟩ := lexed
      have date_trailing := is_date.trailing_date (by decide) date_lexed (.nil .flatSelect)
      rw [List.append_nil] at date_trailing
      rw [List.append_assoc]
      exact (is_head.begins (by decide) (.inl rfl) head_lexed
        (is_filter.trailing (.inl rfl) (by decide) filter_lexed date_trailing)).scans
  | link kind head filter date mode is_head is_filter is_date is_mode =>
      have loose : kind ∉ tightNodes := by
        obtain rfl | rfl := is_mode.kind_eq <;> decide
      simp only [Tree.tokens_node, Tree.tokensAll_append, List.forall_mem_append] at lexed
      obtain ⟨⟨head_lexed, filter_lexed⟩, date_lexed, -⟩ := lexed
      have clauses_trailing := is_date.trailing_date loose date_lexed (is_mode.trailing loose)
      rw [List.append_assoc]
      exact (is_head.begins loose (.inr rfl) head_lexed
        (is_filter.trailing (.inr rfl) loose filter_lexed clauses_trailing)).scans

end Grammar

end WorkItemQuery
