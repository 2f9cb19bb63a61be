import WorkItemQuery.Proofs.Grammar.Productions

/-!
# Every derivation is read

In front of a token that cannot go on with it, the word of a derivation tree is read as that tree.
So a list of tokens has at most one derivation tree.
-/

namespace WorkItemQuery
namespace Grammar

variable {ctx : Context}

/-! ## Tokens -/

theorem peek_of_nextKind {kind : Kind} {tokens : List Token} (kind_eq : nextKind tokens = kind) :
    peek tokens = .ok (kind, tokens) := by
  rw [peek, kind_eq]

theorem optional_of_isOptional {kinds : KindSet} {trees : List Tree} {rest : List Token}
    (is_optional : IsOptional kinds trees) (notMem : nextKind rest ∉ kinds) :
    optional kinds (Tree.tokensAll trees ++ rest) = .ok (trees, rest) := by
  cases is_optional with
  | absent => exact optional_of_notMem notMem
  | present token mem => exact optional_cons mem rest

/-! ## Values -/

theorem field_of_isField {tree : Tree} (is_field : IsField tree) (rest : List Token) :
    field ctx (tree.tokens ++ rest) = .ok (tree, rest) := by
  cases is_field with
  | name name name_kind =>
      change field ctx (name :: rest) = _
      rw [field, bind_of_ok (expect_cons name_kind rest), liftM_node (node_field name_kind)]

theorem IsField.nextKind_eq {tree : Tree} (is_field : IsField tree) (rest : List Token) :
    nextKind (tree.tokens ++ rest) = .identifier := by
  cases is_field with
  | name name name_kind => exact name_kind

theorem IsNumber.exists_parts {tree : Tree} (is_number : IsNumber tree) :
    ∃ minus digits, IsOptional (.single .minus) minus ∧ digits.kind = .digits ∧
      tree = .node .number (minus ++ [.leaf digits]) := by
  cases is_number with
  | plain digits digits_kind => exact ⟨[], digits, .absent, digits_kind, rfl⟩
  | negative minus digits minus_kind digits_kind =>
      exact ⟨_, digits, .present minus (KindSet.mem_single.2 minus_kind), digits_kind, rfl⟩

theorem number_of_isNumber {tree : Tree} (is_number : IsNumber tree) (rest : List Token) :
    number ctx (tree.tokens ++ rest) = .ok (tree, rest) := by
  obtain ⟨minus, digits, is_minus, digits_kind, rfl⟩ := is_number.exists_parts
  have no_minus : nextKind (digits :: rest) ∉ KindSet.single .minus := by
    rw [nextKind_cons, digits_kind]
    decide
  have tokens_eq : (Tree.node .number (minus ++ [.leaf digits])).tokens ++ rest =
      Tree.tokensAll minus ++ digits :: rest := by
    simp
  rw [tokens_eq, number, bind_of_ok (optional_of_isOptional is_minus no_minus),
    bind_of_ok (expectToken_cons digits_kind rest), liftM_node (node_number digits_kind)]

theorem IsNumber.nextKind_eq {tree : Tree} (is_number : IsNumber tree) (rest : List Token) :
    nextKind (tree.tokens ++ rest) = .digits ∨ nextKind (tree.tokens ++ rest) = .minus := by
  cases is_number with
  | plain digits digits_kind => exact .inl digits_kind
  | negative minus digits minus_kind digits_kind => exact .inr minus_kind

theorem date_of_isDate {tree : Tree} (is_date : IsDate tree) (rest : List Token) :
    date ctx (tree.tokens ++ rest) = .ok (tree, rest) := by
  cases is_date with
  | literal text text_kind =>
      change date ctx (text :: rest) = _
      rw [date, bind_of_ok (expect_cons text_kind rest), liftM_node (node_date text_kind)]

theorem IsTerm.nextKind_mem {tree : Tree} (is_term : IsTerm tree) (rest : List Token) :
    nextKind (tree.tokens ++ rest) ∈ KindSet.valueFirst := by
  have kinds : ∀ kind : Kind,
      kind ∈ simpleTerms ∨ kind = .digits ∨ kind = .minus ∨ kind = .identifier →
        kind ∈ KindSet.valueFirst := by
    decide
  cases is_term with
  | number tree is_number =>
      obtain kind_eq | kind_eq := is_number.nextKind_eq rest
      · exact kinds _ (.inr (.inl kind_eq))
      · exact kinds _ (.inr (.inr (.inl kind_eq)))
  | field tree is_field => exact kinds _ (.inr (.inr (.inr (is_field.nextKind_eq rest))))
  | simple token mem => exact kinds _ (.inl mem)

theorem term_of_isTerm {tree : Tree} (is_term : IsTerm tree) (rest : List Token) :
    term ctx (tree.tokens ++ rest) = .ok (tree, rest) := by
  rw [term_eq]
  cases is_term with
  | number tree is_number =>
      have kinds : ∀ kind : Kind, kind = .digits ∨ kind = .minus → kind ∉ simpleTerms := by decide
      have kind_eq := is_number.nextKind_eq rest
      rw [bind_of_ok (eatOneOf_of_notMem (kinds _ kind_eq))]
      obtain kind_eq | kind_eq := kind_eq <;>
        exact (bind_of_ok (peek_of_nextKind kind_eq)).trans (number_of_isNumber is_number rest)
  | field tree is_field =>
      have kind_eq := is_field.nextKind_eq rest
      rw [bind_of_ok (eatOneOf_of_notMem (by rw [kind_eq]; decide))]
      exact (bind_of_ok (peek_of_nextKind kind_eq)).trans (field_of_isField is_field rest)
  | simple token mem => exact bind_of_ok (eatOneOf_cons mem rest)

theorem IsValue.nextKind_mem {tree : Tree} (is_value : IsValue tree) (rest : List Token) :
    nextKind (tree.tokens ++ rest) ∈ KindSet.valueFirst := by
  cases is_value with
  | plain term is_term => simpa using is_term.nextKind_mem rest
  | shifted term sign offset is_term => simpa using is_term.nextKind_mem _

theorem value_of_isValue {tree : Tree} (is_value : IsValue tree) {rest : List Token}
    (no_offset : nextKind rest ∉ KindSet.plusMinus) :
    value ctx (tree.tokens ++ rest) = .ok (tree, rest) := by
  cases is_value with
  | plain term is_term =>
      rw [Tree.tokens_node, Tree.tokensAll_cons, Tree.tokensAll_nil, List.append_nil, value,
        bind_of_ok (term_of_isTerm is_term rest), bind_of_ok (eatOneOf_of_notMem no_offset)]
      exact liftM_node (node_value is_term) rest
  | shifted term sign offset is_term sign_mem is_number =>
      have tokens_eq : (Tree.node .value [term, .leaf sign, offset]).tokens ++ rest =
          term.tokens ++ sign :: (offset.tokens ++ rest) := by
        simp
      rw [tokens_eq, value, bind_of_ok (term_of_isTerm is_term _),
        bind_of_ok (eatOneOf_cons sign_mem _)]
      dsimp only
      rw [bind_of_ok (number_of_isNumber is_number rest)]
      exact liftM_node (node_shifted is_term sign_mem is_number) rest

/-! ## Lists -/

section

variable {item : Production (List Tree)} {separators : KindSet} {IsItem : List Tree → Prop}

/-- A chain of items has their word, and comes from linking them. -/
theorem exists_parts_of_isChain {kind : Kind}
    (builds : ∀ trees tail, IsItem trees →
      node kind (trees ++ tail) = .ok (.node kind (trees ++ tail)))
    {tree : Tree} (is_chain : IsChain kind separators IsItem tree) :
    ∃ parts, IsParts separators IsItem parts tree.tokens ∧ chain kind parts = .ok tree := by
  induction is_chain with
  | last trees is_item =>
      refine ⟨[trees], .last trees is_item, ?_⟩
      simpa [chain] using builds trees [] is_item
  | more trees separator rest is_item mem _ ih =>
      obtain ⟨parts, is_parts, chain_eq⟩ := ih
      refine ⟨(trees ++ [.leaf separator]) :: parts, ?_, ?_⟩
      · simpa using IsParts.more trees separator parts rest.tokens is_item mem is_parts
      · rw [chain_cons is_parts, chain_eq, ok_bind, List.append_assoc]
        exact builds trees [.leaf separator, rest] is_item

theorem elementsWithin_of_isParts {parts : List (List Tree)} {taken rest : List Token}
    (item_reads : ∀ trees behind, IsItem trees →
      nextKind behind ∈ separators ∨ nextKind behind = nextKind rest →
      item (Tree.tokensAll trees ++ behind) = .ok (trees, behind))
    (last : nextKind rest ∉ separators) (is_parts : IsParts separators IsItem parts taken)
    {steps : Nat} (enough : taken.length < steps) :
    elementsWithin item separators steps (taken ++ rest) = .ok (parts, rest) := by
  induction is_parts generalizing steps with
  | last trees is_item =>
      obtain ⟨steps, rfl⟩ := Nat.exists_eq_add_of_le' (Nat.zero_lt_of_lt enough)
      exact elementsWithin_of_last (item_reads trees rest is_item (.inr rfl)) last steps
  | more trees separator parts taken is_item mem _ ih =>
      obtain ⟨steps, rfl⟩ := Nat.exists_eq_add_of_le' (Nat.zero_lt_of_lt enough)
      have item_eq := item_reads trees (separator :: (taken ++ rest)) is_item (.inl mem)
      simp only [List.length_append, List.length_cons] at enough
      rw [List.append_assoc, List.cons_append, elementsWithin_of_more item_eq mem,
        ih (by omega)]
      rfl

theorem linked_of_isChain {kind : Kind} {rest : List Token}
    (builds : ∀ trees tail, IsItem trees →
      node kind (trees ++ tail) = .ok (.node kind (trees ++ tail)))
    (item_reads : ∀ trees behind, IsItem trees →
      nextKind behind ∈ separators ∨ nextKind behind = nextKind rest →
      item (Tree.tokensAll trees ++ behind) = .ok (trees, behind))
    (last : nextKind rest ∉ separators) {tree : Tree}
    (is_chain : IsChain kind separators IsItem tree) :
    linked kind separators item (tree.tokens ++ rest) = .ok (tree, rest) := by
  obtain ⟨parts, is_parts, chain_eq⟩ := exists_parts_of_isChain builds is_chain
  have elements_eq : elements item separators (tree.tokens ++ rest) = .ok (parts, rest) :=
    elementsWithin_of_isParts item_reads last is_parts (by rw [List.length_append]; omega)
  rw [linked, bind_of_ok elements_eq, chain_eq]
  rfl

end

theorem valueList_of_isValueList {tree : Tree} (is_list : IsValueList tree) {rest : List Token}
    (last : nextKind rest ∉ KindSet.plusMinus.union (.single .comma)) :
    valueList ctx (tree.tokens ++ rest) = .ok (tree, rest) := by
  rw [KindSet.mem_union, not_or] at last
  refine linked_of_isChain ?_ ?_ last.2 is_list
  · rintro trees tail ⟨value, rfl, is_value⟩
    exact node_valueList (.head _) is_value
  · rintro trees behind ⟨tree, rfl, is_value⟩ follow
    have no_offset : nextKind behind ∉ KindSet.plusMinus := by
      obtain mem | kind_eq := follow
      · rw [KindSet.mem_single.1 mem]
        decide
      · rw [kind_eq]
        exact last.1
    rw [Tree.tokensAll_cons, Tree.tokensAll_nil, List.append_nil,
      bind_of_ok (value_of_isValue is_value no_offset)]
    rfl

theorem fieldList_of_isFieldList {tree : Tree} (is_list : IsFieldList tree) {rest : List Token}
    (last : nextKind rest ≠ .comma) :
    fieldList ctx (tree.tokens ++ rest) = .ok (tree, rest) := by
  refine linked_of_isChain ?_ ?_ (mt KindSet.mem_single.1 last) is_list
  · rintro trees tail ⟨field, rfl, is_field⟩
    exact node_list (.inl rfl) (.head _) is_field.kind_eq
  · rintro trees behind ⟨tree, rfl, is_field⟩ -
    rw [Tree.tokensAll_cons, Tree.tokensAll_nil, List.append_nil,
      bind_of_ok (field_of_isField is_field behind)]
    rfl

/-! ## Operators and comparisons -/

theorem operatorProper_of_isOperatorProper {tree : Tree} (is_proper : IsOperatorProper tree)
    {rest : List Token} (no_words : nextKind rest ≠ .wordsKw) :
    operatorProper ctx (tree.tokens ++ rest) = .ok (tree, rest) := by
  cases is_proper with
  | single token choice =>
      change operatorProper ctx (token :: rest) = _
      by_cases contains_kind : token.kind = .containsKw
      · rw [operatorProper, bind_of_ok (eat_cons contains_kind rest)]
        exact bind_of_ok (eat_of_ne no_words)
      · have kinds : ∀ kind : Kind, kind ∈ KindSet.comparisonOperators ∨ kind = .everKw →
            kind ≠ .inKw ∧ kind ∈ KindSet.comparisonOperators.union (.single .everKw) := by
          decide
        obtain ⟨no_in, mem⟩ := kinds token.kind
          (choice.imp_right fun choice => choice.resolve_right contains_kind)
        rw [operatorProper_of_ne (by exact contains_kind) (by exact no_in)]
        exact bind_of_ok (eatOneOf_cons mem rest)
  | containsWords contains words contains_kind words_kind =>
      change operatorProper ctx (contains :: words :: rest) = _
      rw [operatorProper, bind_of_ok (eat_cons contains_kind _)]
      dsimp only
      rw [bind_of_ok (eat_cons words_kind rest)]
      exact liftM_node (node_containsWords contains_kind words_kind) rest
  | inGroup word group word_kind group_kind =>
      exact operatorProper_of_inGroup word_kind group_kind rest

theorem IsOperatorProper.nextKind_ne {tree : Tree} (is_proper : IsOperatorProper tree)
    (rest : List Token) : nextKind (tree.tokens ++ rest) ≠ .notKw := by
  have kinds : ∀ kind : Kind, kind ∈ KindSet.comparisonOperators ∨ kind = .everKw ∨
      kind = .containsKw ∨ kind = .inKw → kind ≠ .notKw := by
    decide
  cases is_proper with
  | single token choice =>
      obtain mem | kind_eq | kind_eq := choice
      · exact kinds _ (.inl mem)
      · exact kinds _ (.inr (.inl kind_eq))
      · exact kinds _ (.inr (.inr (.inl kind_eq)))
  | containsWords contains words contains_kind =>
      exact kinds _ (.inr (.inr (.inl contains_kind)))
  | inGroup word group word_kind => exact kinds _ (.inr (.inr (.inr word_kind)))

/-- Where an operator stands, the tokens do not ask whether a value is in a list. -/
theorem IsOperator.startsMembership_eq {tree : Tree} (is_operator : IsOperator tree)
    (rest : List Token) : startsMembership (tree.tokens ++ rest) = false := by
  obtain ⟨negation, proper, is_negation, is_proper⟩ := is_operator
  have in_group : nextKind (proper.tokens ++ rest) = .inKw →
      kindAt (proper.tokens ++ rest) 1 = .groupKw := by
    have kinds : ∀ kind : Kind, kind ∈ KindSet.comparisonOperators ∨ kind = .everKw ∨
        kind = .containsKw → kind ≠ .inKw := by
      decide
    intro in_kind
    cases is_proper with
    | single token choice => exact absurd in_kind (kinds _ choice)
    | containsWords contains words contains_kind =>
        exact absurd in_kind (kinds _ (.inr (.inr contains_kind)))
    | inGroup word group word_kind group_kind => exact group_kind
  have no_negation : nextKind (proper.tokens ++ rest) ∉ KindSet.single .notKw :=
    mt KindSet.mem_single.1 (is_proper.nextKind_ne rest)
  have tokens_eq : (Tree.node .operator (negation ++ [proper])).tokens ++ rest =
      Tree.tokensAll negation ++ (proper.tokens ++ rest) := by
    simp
  rw [tokens_eq, startsMembership_of_optional (optional_of_isOptional is_negation no_negation)]
  by_cases in_kind : nextKind (proper.tokens ++ rest) = .inKw
  · simp [in_group in_kind]
  · simp [in_kind]

theorem operator_of_isOperator {tree : Tree} (is_operator : IsOperator tree) {rest : List Token}
    (no_words : nextKind rest ≠ .wordsKw) :
    operator ctx (tree.tokens ++ rest) = .ok (tree, rest) := by
  obtain ⟨negation, proper, is_negation, is_proper⟩ := is_operator
  have tokens_eq : (Tree.node .operator (negation ++ [proper])).tokens ++ rest =
      Tree.tokensAll negation ++ (proper.tokens ++ rest) := by
    simp
  have no_negation : nextKind (proper.tokens ++ rest) ∉ KindSet.single .notKw :=
    mt KindSet.mem_single.1 (is_proper.nextKind_ne rest)
  rw [tokens_eq, operator, bind_of_ok (optional_of_isOptional is_negation no_negation),
    bind_of_ok (operatorProper_of_isOperatorProper is_proper no_words)]
  exact liftM_node (node_operator is_proper) rest

/-- Where a list stands, the tokens ask whether a value is in it. -/
theorem startsMembership_of_isOptional {negation : List Tree}
    (is_negation : IsOptional (.single .notKw) negation) {word opened : Token}
    (word_kind : word.kind = .inKw) (opened_kind : opened.kind = .leftParen) (rest : List Token) :
    startsMembership (Tree.tokensAll negation ++ word :: opened :: rest) = true := by
  cases is_negation with
  | absent => simp [startsMembership, kindAt, word_kind, opened_kind]
  | present negation mem =>
      simp [startsMembership, kindAt, KindSet.mem_single.1 mem, word_kind, opened_kind]

theorem comparison_of_isComparison {trees : List Tree} (is_comparison : IsComparison trees)
    {rest : List Token} (no_offset : nextKind rest ∉ KindSet.plusMinus) :
    comparison ctx (Tree.tokensAll trees ++ rest) = .ok (trees, rest) := by
  cases is_comparison with
  | compare operator value is_operator is_value =>
      have tokens_eq : Tree.tokensAll [operator, value] ++ rest =
          operator.tokens ++ (value.tokens ++ rest) := by
        simp
      have no_words : nextKind (value.tokens ++ rest) ≠ .wordsKw := by
        intro words_kind
        have mem := is_value.nextKind_mem rest
        rw [words_kind] at mem
        cases mem
      rw [tokens_eq, comparison_apply, if_neg (by rw [is_operator.startsMembership_eq]; nofun),
        bind_of_ok (operator_of_isOperator is_operator no_words),
        bind_of_ok (value_of_isValue is_value no_offset)]
      rfl
  | member negation word opened values closed is_negation word_kind opened_kind is_values
      closed_kind =>
      have tokens_eq : Tree.tokensAll (negation ++ [.leaf word, .leaf opened, values, .leaf closed])
          ++ rest = Tree.tokensAll negation ++ word :: opened :: (values.tokens ++ closed :: rest) := by
        simp
      have no_negation : nextKind (word :: opened :: (values.tokens ++ closed :: rest)) ∉
          KindSet.single .notKw := by
        rw [nextKind_cons, word_kind]
        decide
      have last : nextKind (closed :: rest) ∉ KindSet.plusMinus.union (.single .comma) := by
        rw [nextKind_cons, closed_kind]
        decide
      rw [tokens_eq, comparison_apply,
        if_pos (startsMembership_of_isOptional is_negation word_kind opened_kind _), membership,
        bind_of_ok (optional_of_isOptional is_negation no_negation),
        bind_of_ok (expectToken_cons word_kind _), bind_of_ok (expectToken_cons opened_kind _),
        bind_of_ok (valueList_of_isValueList is_values last),
        bind_of_ok (closeParen_cons closed_kind rest)]
      rfl

/-! ## Conditions -/

theorem side_of_isSide (ctx : Context) {tree : Tree} (is_side : IsSide tree) :
    ∃ word dot, word.kind ∈ KindSet.linkSide ∧ tree.tokens = [word, dot] ∧
      ∀ rest, side ctx word (dot :: rest) = .ok (tree, rest) := by
  have builds := node_side is_side
  cases is_side with
  | source word dot word_kind dot_kind =>
      refine ⟨word, dot, by rw [word_kind]; decide, rfl, fun rest => ?_⟩
      rw [side, bind_of_ok (expectToken_cons dot_kind rest), if_pos word_kind]
      exact liftM_node builds rest
  | target word dot word_kind dot_kind =>
      refine ⟨word, dot, by rw [word_kind]; decide, rfl, fun rest => ?_⟩
      rw [side, bind_of_ok (expectToken_cons dot_kind rest), if_neg (by rw [word_kind]; nofun)]
      exact liftM_node builds rest

theorem sideOf_of_isOptionalSide {form : Dialect} {trees : List Tree}
    (is_side : IsOptionalSide form trees) {rest : List Token}
    (no_side : nextKind rest ∉ KindSet.linkSide) :
    sideOf form ctx (Tree.tokensAll trees ++ rest) = .ok (trees, rest) := by
  unfold sideOf
  cases is_side with
  | absent =>
      split
      · exact bind_of_ok (eatOneOf_of_notMem no_side)
      · rfl
  | present tree has_sides is_side =>
      obtain ⟨word, dot, word_mem, tokens_eq, side_eq⟩ := side_of_isSide ctx is_side
      have tokens_eq : Tree.tokensAll [tree] ++ rest = word :: dot :: rest := by
        simp [tokens_eq]
      rw [if_pos has_sides, tokens_eq, optionalSide, bind_of_ok (eatOneOf_cons word_mem _)]
      dsimp only
      rw [bind_of_ok (side_eq rest)]
      rfl

/-- What can begin a condition without parentheses. -/
theorem IsOptionalSide.nextKind_mem {form : Dialect} {trees : List Tree}
    (is_side : IsOptionalSide form trees) {rest : List Token}
    (rest_kind : nextKind rest = .identifier) :
    nextKind (Tree.tokensAll trees ++ rest) = .identifier ∨
      form.hasSides = true ∧ nextKind (Tree.tokensAll trees ++ rest) ∈ KindSet.linkSide := by
  cases is_side with
  | absent => exact .inl rest_kind
  | present tree has_sides is_side =>
      refine .inr ⟨has_sides, ?_⟩
      cases is_side with
      | source word dot word_kind | target word dot word_kind =>
          change word.kind ∈ KindSet.linkSide
          rw [word_kind]
          decide

theorem leafCondition_of_isLeaf {form : Dialect} (is_form : IsForm form)
    {side comparison : List Tree} {field : Tree} (is_side : IsOptionalSide form side)
    (is_field : IsField field) (is_comparison : IsComparison comparison) {rest : List Token}
    (no_offset : nextKind rest ∉ KindSet.plusMinus) :
    leafCondition ctx form
        (Tree.tokensAll side ++ (field.tokens ++ (Tree.tokensAll comparison ++ rest))) =
      .ok (.node form.condition (side ++ field :: comparison), rest) := by
  have field_kind := is_field.nextKind_eq (Tree.tokensAll comparison ++ rest)
  have no_side : nextKind (field.tokens ++ (Tree.tokensAll comparison ++ rest)) ∉
      KindSet.linkSide := by
    rw [field_kind]
    decide
  rw [leafCondition, bind_of_ok (peek_of_nextKind rfl), if_pos (is_side.nextKind_mem field_kind),
    bind_of_ok (sideOf_of_isOptionalSide is_side no_side),
    bind_of_ok (field_of_isField is_field _),
    bind_of_ok (comparison_of_isComparison is_comparison no_offset)]
  exact liftM_node (node_leafCondition is_form is_side is_field is_comparison) rest

theorem nesting_expression {form : Dialect} (is_form : IsForm form) (children : List Tree) :
    (Tree.node form.expression children).nesting = Tree.nestingAll children := by
  apply Tree.nesting_of_not_isNesting
  obtain rfl | rfl := is_form <;> rfl

/-- Parentheses around an expression are one more level. -/
theorem nesting_nested {form : Dialect} (is_form : IsForm form) {inner : Tree}
    (inner_kind : inner.kind = form.expression) (opened closed : Token) :
    (Tree.node form.condition [.leaf opened, inner, .leaf closed]).nesting = inner.nesting + 1 := by
  have is_nesting : Tree.isNesting form.condition [.leaf opened, inner, .leaf closed] = true := by
    obtain rfl | rfl := is_form <;>
      simp_all [Tree.isNesting, Dialect.flat, Dialect.link]
  simp [Tree.nesting, is_nesting, Nat.add_comm]

theorem isChain_of_isExpression {form : Dialect} (is_form : IsForm form) {depth : Nat} {tree : Tree} :
    IsExpression form tree → tree.nesting ≤ depth →
    IsChain form.expression .andOr
      (fun trees => IsModified form trees ∧ Tree.nestingAll trees ≤ depth) tree
  | .last modifier condition is_modifier is_condition, le => by
      rw [nesting_expression is_form] at le
      exact .last _ ⟨⟨modifier, condition, is_modifier, is_condition, rfl⟩, le⟩
  | .more modifier condition connective rest is_modifier is_condition mem is_expression, le => by
      have children_eq : modifier ++ [condition, .leaf connective, rest] =
          (modifier ++ [condition]) ++ [.leaf connective, rest] := by
        simp
      rw [nesting_expression is_form, children_eq, Tree.nestingAll_append] at le
      rw [children_eq]
      refine .more _ connective rest ⟨⟨modifier, condition, is_modifier, is_condition, rfl⟩, ?_⟩ mem
        (isChain_of_isExpression is_form is_expression ?_)
      · exact Nat.le_trans (Nat.le_max_left ..) le
      · simp only [Tree.nestingAll_cons] at le
        omega

/-- What can begin a condition. -/
def conditionFirst : KindSet := .ofList [.leftParen, .identifier, .sourceKw, .targetKw]

theorem IsCondition.nextKind_mem {form : Dialect} {tree : Tree} (is_condition : IsCondition form tree)
    (rest : List Token) : nextKind (tree.tokens ++ rest) ∈ conditionFirst := by
  have kinds : ∀ kind : Kind, kind = .leftParen ∨ kind = .identifier ∨ kind ∈ KindSet.linkSide →
      kind ∈ conditionFirst := by
    decide
  cases is_condition with
  | nested opened inner closed opened_kind => exact kinds _ (.inl opened_kind)
  | leaf side field comparison is_side is_field =>
      have tokens_eq : (Tree.node form.condition (side ++ field :: comparison)).tokens ++ rest =
          Tree.tokensAll side ++ (field.tokens ++ (Tree.tokensAll comparison ++ rest)) := by
        simp
      rw [tokens_eq]
      exact kinds _ (.inr ((is_side.nextKind_mem (is_field.nextKind_eq _)).imp_right And.right))

section

variable {form : Dialect} {nested : Production Tree} {depth : Nat} {tree : Tree} {rest : List Token}

theorem condition_of_isCondition (is_form : IsForm form)
    (nested_reads : ∀ inner rest, IsExpression form inner → inner.nesting < depth →
      nextKind rest = .rightParen → nested (inner.tokens ++ rest) = .ok (inner, rest))
    (is_condition : IsCondition form tree) (shallow : tree.nesting ≤ depth)
    (no_offset : nextKind rest ∉ KindSet.plusMinus) :
    condition ctx form nested (tree.tokens ++ rest) = .ok (tree, rest) := by
  cases is_condition with
  | nested opened inner closed opened_kind is_expression closed_kind =>
      rw [nesting_nested is_form is_expression.kind_eq] at shallow
      have tokens_eq : (Tree.node form.condition [.leaf opened, inner, .leaf closed]).tokens ++ rest =
          opened :: (inner.tokens ++ closed :: rest) := by
        simp
      have inner_eq := nested_reads inner (closed :: rest) is_expression shallow closed_kind
      rw [tokens_eq, condition, bind_of_ok (eat_cons opened_kind _)]
      dsimp only
      rw [bind_of_ok inner_eq, bind_of_ok (closeParen_cons closed_kind rest)]
      exact liftM_node (node_nested is_form opened_kind is_expression closed_kind) rest
  | leaf side field comparison is_side is_field is_comparison =>
      have tokens_eq : (Tree.node form.condition (side ++ field :: comparison)).tokens ++ rest =
          Tree.tokensAll side ++ (field.tokens ++ (Tree.tokensAll comparison ++ rest)) := by
        simp
      have not_paren : nextKind (Tree.tokensAll side ++
          (field.tokens ++ (Tree.tokensAll comparison ++ rest))) ≠ .leftParen := by
        intro paren_kind
        have starts := is_side.nextKind_mem
          (is_field.nextKind_eq (Tree.tokensAll comparison ++ rest))
        rw [paren_kind] at starts
        obtain ⟨⟨⟩⟩ | ⟨-, ⟨⟩⟩ := starts
      rw [tokens_eq, condition, bind_of_ok (eat_of_ne not_paren)]
      exact leafCondition_of_isLeaf is_form is_side is_field is_comparison no_offset

theorem conditions_of_isExpression (is_form : IsForm form)
    (nested_reads : ∀ inner rest, IsExpression form inner → inner.nesting < depth →
      nextKind rest = .rightParen → nested (inner.tokens ++ rest) = .ok (inner, rest))
    (is_expression : IsExpression form tree) (shallow : tree.nesting ≤ depth)
    (last : nextKind rest ∉ KindSet.plusMinus.union .andOr) :
    conditions ctx form nested (tree.tokens ++ rest) = .ok (tree, rest) := by
  rw [KindSet.mem_union, not_or] at last
  refine linked_of_isChain ?_ ?_ last.2 (isChain_of_isExpression is_form is_expression shallow)
  · rintro trees tail ⟨⟨modifier, condition, is_modifier, is_condition, rfl⟩, -⟩
    exact node_expression is_form (by simp) is_condition
  · rintro trees behind ⟨⟨modifier, condition, is_modifier, is_condition, rfl⟩, shallow⟩ follow
    have no_offset : nextKind behind ∉ KindSet.plusMinus := by
      have kinds : ∀ kind : Kind, kind ∈ KindSet.andOr → kind ∉ KindSet.plusMinus := by decide
      obtain mem | kind_eq := follow
      · exact kinds _ mem
      · rw [kind_eq]
        exact last.1
    have no_modifier : nextKind (condition.tokens ++ behind) ∉ KindSet.everNot := by
      have kinds : ∀ kind : Kind, kind ∈ conditionFirst → kind ∉ KindSet.everNot := by decide
      exact kinds _ (is_condition.nextKind_mem behind)
    have tokens_eq : Tree.tokensAll (modifier ++ [condition]) ++ behind =
        Tree.tokensAll modifier ++ (condition.tokens ++ behind) := by
      simp
    simp only [Tree.nestingAll_append, Tree.nestingAll_cons] at shallow
    rw [tokens_eq, bind_of_ok (optional_of_isOptional is_modifier no_modifier),
      bind_of_ok (condition_of_isCondition is_form nested_reads is_condition (by omega) no_offset)]
    rfl

theorem expression_of_isExpression (is_form : IsForm form) (is_expression : IsExpression form tree)
    (shallow : tree.nesting ≤ depth) (last : nextKind rest ∉ KindSet.plusMinus.union .andOr) :
    expression ctx form depth (tree.tokens ++ rest) = .ok (tree, rest) := by
  induction depth generalizing tree rest with
  | zero =>
      refine conditions_of_isExpression is_form ?_ is_expression shallow last
      exact fun inner rest _ deeper => absurd deeper (Nat.not_lt_zero _)
  | succ depth ih =>
      refine conditions_of_isExpression is_form ?_ is_expression shallow last
      intro inner rest is_inner deeper rest_kind
      refine ih is_inner (Nat.le_of_lt_succ deeper) ?_
      rw [rest_kind]
      decide

end

/-! ## Clauses -/

theorem orderList_of_isOrderList {form : Dialect} (is_form : IsForm form) {tree : Tree}
    (is_list : IsOrderList form tree) {rest : List Token}
    (last : nextKind rest ∉ KindSet.ascDesc.union (.single .comma)) :
    orderList ctx form (tree.tokens ++ rest) = .ok (tree, rest) := by
  rw [KindSet.mem_union, not_or] at last
  refine linked_of_isChain ?_ ?_ last.2 is_list
  · rintro trees tail ⟨side, field, direction, is_side, is_field, is_direction⟩
    refine node_list ?_ (by simp) is_field.kind_eq
    obtain rfl | rfl := is_form <;> simp [Dialect.flat, Dialect.link]
  · rintro trees behind ⟨side, field, direction, is_side, is_field, is_direction⟩ follow
    have no_direction : nextKind behind ∉ KindSet.ascDesc := by
      obtain mem | kind_eq := follow
      · rw [KindSet.mem_single.1 mem]
        decide
      · rw [kind_eq]
        exact last.1
    have no_side : nextKind (field.tokens ++ (Tree.tokensAll direction ++ behind)) ∉
        KindSet.linkSide := by
      rw [is_field.nextKind_eq]
      decide
    have tokens_eq : Tree.tokensAll (side ++ field :: direction) ++ behind =
        Tree.tokensAll side ++ (field.tokens ++ (Tree.tokensAll direction ++ behind)) := by
      simp
    rw [tokens_eq, bind_of_ok (sideOf_of_isOptionalSide is_side no_side),
      bind_of_ok (field_of_isField is_field _),
      bind_of_ok (optional_of_isOptional is_direction no_direction)]
    rfl

theorem clause_of_isClause {word : Kind} {IsBody : Tree → Prop} {body : Production Tree}
    {trees : List Tree} (is_clause : IsClause word IsBody trees) {rest : List Token}
    (other : nextKind rest ≠ word)
    (body_reads : ∀ tree, IsBody tree → tree ∈ trees →
      body (tree.tokens ++ rest) = .ok (tree, rest)) :
    clause word body (Tree.tokensAll trees ++ rest) = .ok (trees, rest) := by
  cases is_clause with
  | absent => exact bind_of_ok (eat_of_ne other)
  | present token tree token_kind is_body =>
      have tokens_eq : Tree.tokensAll [.leaf token, tree] ++ rest = token :: (tree.tokens ++ rest) := by
        simp
      rw [tokens_eq, clause, bind_of_ok (eat_cons token_kind _)]
      dsimp only
      rw [bind_of_ok (body_reads tree is_body (by simp))]
      rfl

/-- The next token after a clause that may be absent. -/
theorem IsClause.nextKind_eq {word : Kind} {IsBody : Tree → Prop} {trees : List Tree}
    (is_clause : IsClause word IsBody trees) (rest : List Token) :
    nextKind (Tree.tokensAll trees ++ rest) = word ∨
      nextKind (Tree.tokensAll trees ++ rest) = nextKind rest := by
  cases is_clause with
  | absent => exact .inr rfl
  | present token tree token_kind => exact .inl token_kind

theorem mode_of_isMode {kind : Kind} {trees : List Tree} (is_mode : IsMode kind trees)
    {rest : List Token} (no_comma : nextKind rest ≠ .comma) :
    mode ctx (Tree.tokensAll trees ++ rest) = .ok ((kind, trees), rest) := by
  cases is_mode with
  | oneHop word mem => exact bind_of_ok (eatOneOf_cons mem rest)
  | recursive word word_kind =>
      have not_one : nextKind (word :: rest) ∉ KindSet.linkMode := by
        rw [nextKind_cons, word_kind]
        decide
      change mode ctx (word :: rest) = _
      rw [mode, bind_of_ok (eatOneOf_of_notMem not_one)]
      dsimp only
      rw [bind_of_ok (eat_cons word_kind rest)]
      exact bind_of_ok (eat_of_ne no_comma)
  | matching word comma matching word_kind comma_kind matching_kind =>
      have not_one : nextKind (word :: comma :: matching :: rest) ∉ KindSet.linkMode := by
        rw [nextKind_cons, word_kind]
        decide
      change mode ctx (word :: comma :: matching :: rest) = _
      rw [mode, bind_of_ok (eatOneOf_of_notMem not_one)]
      dsimp only
      rw [bind_of_ok (eat_cons word_kind _)]
      dsimp only
      rw [bind_of_ok (eat_cons comma_kind _)]
      exact bind_of_ok (expectToken_cons matching_kind rest)

theorem modeClause_of_isModeClause {kind : Kind} {trees : List Tree}
    (is_clause : IsModeClause kind trees) {rest : List Token} (no_mode : nextKind rest ≠ .modeKw) :
    modeClause ctx (Tree.tokensAll trees ++ rest) = .ok ((kind, trees), rest) := by
  cases is_clause with
  | absent => exact bind_of_ok (eat_of_ne no_mode)
  | present kind word opened inside closed word_kind opened_kind is_mode closed_kind =>
      have tokens_eq : Tree.tokensAll (.leaf word :: .leaf opened :: inside ++ [.leaf closed]) ++
          rest = word :: opened :: (Tree.tokensAll inside ++ closed :: rest) := by
        simp
      have no_comma : nextKind (closed :: rest) ≠ .comma := by
        rw [nextKind_cons, closed_kind]
        nofun
      rw [tokens_eq, modeClause, bind_of_ok (eat_cons word_kind _)]
      dsimp only
      rw [bind_of_ok (expectToken_cons opened_kind _), bind_of_ok (mode_of_isMode is_mode no_comma)]
      dsimp only
      rw [bind_of_ok (closeParen_cons closed_kind rest)]
      rfl

theorem IsModeClause.nextKind_eq {kind : Kind} {trees : List Tree}
    (is_clause : IsModeClause kind trees) (rest : List Token) :
    nextKind (Tree.tokensAll trees ++ rest) = .modeKw ∨
      nextKind (Tree.tokensAll trees ++ rest) = nextKind rest ∧ trees = [] := by
  cases is_clause with
  | absent => exact .inr ⟨rfl, rfl⟩
  | present kind word opened inside closed word_kind => exact .inl word_kind

theorem IsLinkClauses.nextKind_eq {kind : Kind} {trees : List Tree}
    (is_clauses : IsLinkClauses kind trees) (rest : List Token) :
    nextKind (Tree.tokensAll trees ++ rest) = .asofKw ∨
      nextKind (Tree.tokensAll trees ++ rest) = .modeKw ∨
      nextKind (Tree.tokensAll trees ++ rest) = nextKind rest := by
  cases is_clauses with
  | dateFirst date mode is_date is_mode =>
      rw [Tree.tokensAll_append, List.append_assoc]
      obtain date_eq | date_eq := is_date.nextKind_eq (Tree.tokensAll mode ++ rest)
      · exact .inl date_eq
      · rw [date_eq]
        exact .inr ((is_mode.nextKind_eq rest).imp_right And.left)
  | modeFirst mode date is_mode is_date =>
      rw [Tree.tokensAll_append, List.append_assoc]
      obtain mode_eq | ⟨mode_eq, -⟩ := is_mode.nextKind_eq (Tree.tokensAll date ++ rest)
      · exact .inr (.inl mode_eq)
      · rw [mode_eq]
        exact (is_date.nextKind_eq rest).imp_right .inr

section

variable {kind : Kind} {date mode : List Tree} {behind : List Token}

theorem asofClause_of_isClause {trees : List Tree} (is_date : IsClause .asofKw IsDate trees)
    {rest : List Token} (no_asof : nextKind rest ≠ .asofKw) :
    clause .asofKw (Grammar.date ctx) (Tree.tokensAll trees ++ rest) = .ok (trees, rest) :=
  clause_of_isClause is_date no_asof fun _ is_date _ => date_of_isDate is_date rest

/-- The mode comes first where it is the next clause. -/
theorem linkClauses_of_mode (is_mode : IsModeClause kind mode) (present : mode ≠ [])
    (is_date : IsClause .asofKw IsDate date) (no_asof : nextKind behind ≠ .asofKw)
    (no_mode : nextKind behind ≠ .modeKw) :
    linkClauses ctx (Tree.tokensAll mode ++ (Tree.tokensAll date ++ behind)) =
      .ok ((kind, mode ++ date), behind) := by
  have mode_kind : nextKind (Tree.tokensAll mode ++ (Tree.tokensAll date ++ behind)) = .modeKw :=
    (is_mode.nextKind_eq _).resolve_right fun absent => present absent.2
  have follow : nextKind (Tree.tokensAll date ++ behind) ≠ .modeKw := by
    obtain kind_eq | kind_eq := is_date.nextKind_eq behind
    · rw [kind_eq]
      nofun
    · rwa [kind_eq]
  rw [linkClauses, bind_of_ok (peek_of_nextKind mode_kind), if_pos rfl,
    bind_of_ok (modeClause_of_isModeClause is_mode follow)]
  dsimp only
  rw [bind_of_ok (asofClause_of_isClause is_date no_asof)]
  rfl

/-- The date comes first where the mode is not the next clause. -/
theorem linkClauses_of_date (is_date : IsClause .asofKw IsDate date)
    (is_mode : IsModeClause kind mode) (not_mode : date = [] → mode = [])
    (no_asof : nextKind behind ≠ .asofKw) (no_mode : nextKind behind ≠ .modeKw) :
    linkClauses ctx (Tree.tokensAll date ++ (Tree.tokensAll mode ++ behind)) =
      .ok ((kind, date ++ mode), behind) := by
  have follow : nextKind (Tree.tokensAll mode ++ behind) ≠ .asofKw := by
    obtain kind_eq | ⟨kind_eq, -⟩ := is_mode.nextKind_eq behind
    · rw [kind_eq]
      nofun
    · rwa [kind_eq]
  have date_kind : nextKind (Tree.tokensAll date ++ (Tree.tokensAll mode ++ behind)) ≠ .modeKw := by
    cases is_date with
    | absent =>
        rw [not_mode rfl]
        exact no_mode
    | present word date word_kind =>
        change word.kind ≠ .modeKw
        rw [word_kind]
        nofun
  rw [linkClauses, bind_of_ok (peek_of_nextKind rfl), if_neg date_kind,
    bind_of_ok (asofClause_of_isClause is_date follow),
    bind_of_ok (modeClause_of_isModeClause is_mode no_mode)]
  rfl

end

theorem linkClauses_of_isLinkClauses {kind : Kind} {trees : List Tree}
    (is_clauses : IsLinkClauses kind trees) {rest : List Token}
    (no_asof : nextKind rest ≠ .asofKw) (no_mode : nextKind rest ≠ .modeKw) :
    linkClauses ctx (Tree.tokensAll trees ++ rest) = .ok ((kind, trees), rest) := by
  cases is_clauses with
  | dateFirst date mode is_date is_mode =>
      rw [Tree.tokensAll_append, List.append_assoc]
      by_cases mode_only : date = [] ∧ mode ≠ []
      · obtain ⟨rfl, present⟩ := mode_only
        simpa using linkClauses_of_mode is_mode present is_date no_asof no_mode
      · refine linkClauses_of_date is_date is_mode ?_ no_asof no_mode
        intro absent
        by_cases present : mode = []
        · exact present
        · exact absurd ⟨absent, present⟩ mode_only
  | modeFirst mode date is_mode is_date =>
      rw [Tree.tokensAll_append, List.append_assoc]
      by_cases present : mode = []
      · subst present
        simpa using linkClauses_of_date is_date is_mode (fun _ => rfl) no_asof no_mode
      · exact linkClauses_of_mode is_mode present is_date no_asof no_mode

theorem filterClauses_of_isFilter {form : Dialect} (is_form : IsForm form) {depth : Nat}
    {trees : List Tree} (is_filter : IsFilter form trees) (shallow : Tree.nestingAll trees ≤ depth)
    {rest : List Token} (last : nextKind rest ∈ KindSet.ofList [.asofKw, .modeKw, .endMark]) :
    filterClauses ctx form depth (Tree.tokensAll trees ++ rest) = .ok (trees, rest) := by
  have kinds : ∀ kind : Kind, kind = .orderByKw ∨ kind ∈ KindSet.ofList [.asofKw, .modeKw, .endMark] →
      kind ≠ .whereKw ∧ kind ∉ KindSet.plusMinus.union .andOr ∧
        kind ∉ KindSet.ascDesc.union (.single .comma) := by
    decide
  have no_order : nextKind rest ≠ .orderByKw := by
    intro order_kind
    rw [order_kind] at last
    cases last
  obtain ⟨conditions, order, is_conditions, is_order⟩ := is_filter
  rw [Tree.nestingAll_append] at shallow
  have follow : nextKind (Tree.tokensAll order ++ rest) = .orderByKw ∨
      nextKind (Tree.tokensAll order ++ rest) ∈ KindSet.ofList [.asofKw, .modeKw, .endMark] :=
    (is_order.nextKind_eq rest).imp_right fun kind_eq => by rwa [kind_eq]
  have conditions_eq : clause .whereKw (expression ctx form depth)
      (Tree.tokensAll conditions ++ (Tree.tokensAll order ++ rest)) =
        .ok (conditions, Tree.tokensAll order ++ rest) := by
    refine clause_of_isClause is_conditions (kinds _ follow).1 fun tree is_expression mem => ?_
    refine expression_of_isExpression is_form is_expression ?_ (kinds _ follow).2.1
    exact Nat.le_trans (Tree.nesting_le_nestingAll mem) (Nat.le_trans (Nat.le_max_left ..) shallow)
  have order_eq : clause .orderByKw (orderList ctx form) (Tree.tokensAll order ++ rest) =
      .ok (order, rest) :=
    clause_of_isClause is_order no_order fun tree is_list _ =>
      orderList_of_isOrderList is_form is_list (kinds _ (.inr last)).2.2
  rw [Tree.tokensAll_append, List.append_assoc, filterClauses, bind_of_ok conditions_eq,
    bind_of_ok order_eq]
  rfl

/-! ## Queries -/

theorem flatTail_of_isQuery {depth : Nat} {head filter date : List Tree}
    (is_head : IsHead .workItemsKw head) (is_filter : IsFilter .flat filter)
    (shallow : Tree.nestingAll filter ≤ depth) (is_date : IsClause .asofKw IsDate date)
    {rest : List Token} (at_end : nextKind rest = .endMark) :
    flatTail ctx depth head (Tree.tokensAll filter ++ (Tree.tokensAll date ++ rest)) =
      .ok (.node .flatSelect (head ++ filter ++ date), rest) := by
  have last : nextKind (Tree.tokensAll date ++ rest) ∈
      KindSet.ofList [.asofKw, .modeKw, .endMark] := by
    obtain kind_eq | kind_eq := is_date.nextKind_eq rest
    · rw [kind_eq]
      decide
    · rw [kind_eq, at_end]
      decide
  rw [flatTail, bind_of_ok (filterClauses_of_isFilter (.inl rfl) is_filter shallow last),
    bind_of_ok (asofClause_of_isClause is_date (by rw [at_end]; nofun)),
    bind_of_ok (peek_of_nextKind at_end), if_neg nofun]
  obtain ⟨select, fields, origin, place, _, is_fields, _, _⟩ := is_head
  exact liftM_node (node_select (.inl rfl) (by simp) (IsChain.kind_eq is_fields)) rest

theorem linkTail_of_isQuery {kind : Kind} {depth : Nat} {head filter clauses : List Tree}
    (is_head : IsHead .workItemLinksKw head) (is_filter : IsFilter .link filter)
    (shallow : Tree.nestingAll filter ≤ depth) (is_clauses : IsLinkClauses kind clauses)
    {rest : List Token} (at_end : nextKind rest = .endMark) :
    linkTail ctx depth head (Tree.tokensAll filter ++ (Tree.tokensAll clauses ++ rest)) =
      .ok (.node kind (head ++ filter ++ clauses), rest) := by
  have last : nextKind (Tree.tokensAll clauses ++ rest) ∈
      KindSet.ofList [.asofKw, .modeKw, .endMark] := by
    have kinds := is_clauses.nextKind_eq rest
    rw [at_end] at kinds
    simpa using kinds
  rw [linkTail, bind_of_ok (filterClauses_of_isFilter (.inr rfl) is_filter shallow last),
    bind_of_ok (linkClauses_of_isLinkClauses is_clauses (by rw [at_end]; nofun)
      (by rw [at_end]; nofun))]
  obtain ⟨select, fields, origin, place, _, is_fields, _, _⟩ := is_head
  exact liftM_node (node_select (.inr is_clauses.kind_eq) (by simp) (IsChain.kind_eq is_fields)) rest

/-- The words that every query begins with lead to the tail for its source. -/
theorem query_of_isHead {source : Kind} {depth : Nat} {head : List Tree}
    (is_head : IsHead source head) (rest : List Token) :
    (source = .workItemsKw →
        query ctx depth (Tree.tokensAll head ++ rest) = flatTail ctx depth head rest) ∧
      (source = .workItemLinksKw →
        query ctx depth (Tree.tokensAll head ++ rest) = linkTail ctx depth head rest) := by
  obtain ⟨select, fields, origin, place, select_kind, is_fields, origin_kind, place_kind⟩ := is_head
  have tokens_eq : Tree.tokensAll [.leaf select, fields, .leaf origin, .leaf place] ++ rest =
      select :: (fields.tokens ++ origin :: place :: rest) := by
    simp
  have no_comma : nextKind (origin :: place :: rest) ≠ .comma := by
    rw [nextKind_cons, origin_kind]
    nofun
  rw [tokens_eq, query, bind_of_ok (expect_cons select_kind _),
    bind_of_ok (fieldList_of_isFieldList is_fields no_comma),
    bind_of_ok (expect_cons origin_kind _)]
  constructor
  · rintro rfl
    rw [bind_of_ok (eat_cons place_kind rest)]
    rfl
  · rintro rfl
    have not_flat : nextKind (place :: rest) ≠ .workItemsKw := by
      rw [nextKind_cons, place_kind]
      nofun
    rw [bind_of_ok (eat_of_ne not_flat)]
    dsimp only
    rw [bind_of_ok (eat_cons place_kind rest)]
    rfl

/-- A query is read as its tree, if the allowed depth is not less than the depth of the tree. -/
theorem query_of_isQuery {depth : Nat} {tree : Tree} (is_query : IsQuery tree)
    (shallow : tree.nesting ≤ depth) {rest : List Token} (at_end : nextKind rest = .endMark) :
    query ctx depth (tree.tokens ++ rest) = .ok (tree, rest) := by
  cases is_query with
  | flat head filter date is_head is_filter is_date =>
      rw [Tree.nesting_of_not_isNesting rfl, Tree.nestingAll_append,
        Tree.nestingAll_append] at shallow
      rw [Tree.tokens_node, Tree.tokensAll_append, Tree.tokensAll_append, List.append_assoc,
        List.append_assoc, (query_of_isHead is_head _).1 rfl]
      exact flatTail_of_isQuery is_head is_filter (by omega) is_date at_end
  | link kind head filter clauses is_head is_filter is_clauses =>
      have not_nesting : Tree.isNesting kind (head ++ filter ++ clauses) = false := by
        obtain rfl | rfl := is_clauses.kind_eq <;> rfl
      rw [Tree.nesting_of_not_isNesting not_nesting, Tree.nestingAll_append,
        Tree.nestingAll_append] at shallow
      rw [Tree.tokens_node, Tree.tokensAll_append, Tree.tokensAll_append, List.append_assoc,
        List.append_assoc, (query_of_isHead is_head _).2 rfl]
      exact linkTail_of_isQuery is_head is_filter (by omega) is_clauses at_end

end Grammar
end WorkItemQuery
