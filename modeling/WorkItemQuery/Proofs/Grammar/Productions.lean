import WorkItemQuery.Proofs.Grammar.Lists
import WorkItemQuery.Proofs.Grammar.Words

/-!
# The contracts of the productions

Every production keeps the contract for its rule of the grammar.  Conditions keep it as far as the
production between parentheses does, and so expressions keep it for token lists that are no longer
than the allowed depth.
-/

namespace WorkItemQuery
namespace Grammar

variable {ctx : Context} {bound : Nat}

/-! ## Values and operators -/

theorem reads_field (closed : ctx.Closed) :
    Reads ctx bound [] (field ctx) (fun _ => field ctx) (WordOf IsField) := by
  refine (reads_expect closed (by decide) _).step ?_
  rintro name taken ⟨rfl, name_kind⟩
  exact Reads.node (node_field name_kind) ⟨.name name name_kind, rfl⟩

theorem reads_number (closed : ctx.Closed) :
    Reads ctx bound [] (number ctx) (fun _ => number ctx) (WordOf IsNumber) := by
  refine (reads_optional (by decide)).step ?_
  rintro minus taken ⟨is_minus, rfl⟩
  refine (reads_expectToken closed (by decide)).step ?_
  rintro digits taken ⟨rfl, digits_kind⟩
  refine Reads.node (node_number digits_kind) ⟨?_, by simp⟩
  cases is_minus with
  | absent => exact .plain digits digits_kind
  | present minus mem => exact .negative minus digits (KindSet.mem_single.1 mem) digits_kind

theorem reads_date (closed : ctx.Closed) :
    Reads ctx bound [] (date ctx) (fun _ => date ctx) (WordOf IsDate) := by
  refine (reads_expect closed (by decide) _).step ?_
  rintro text taken ⟨rfl, text_kind⟩
  exact Reads.node (node_date text_kind) ⟨.literal text text_kind, rfl⟩

/-- A term is a single token, if it is no number and no field. -/
theorem term_eq (ctx : Context) :
    term ctx = (do
      match ← eatOneOf simpleTerms with
      | some token => return .leaf token
      | none =>
        match ← peek with
        | .digits | .minus => number ctx
        | .identifier => field ctx
        | _ => halt ctx .expectedValue) := by
  funext tokens
  obtain _ | ⟨⟨⟨kind, line, column, offset, text⟩, before⟩, rest⟩ := tokens
  · rfl
  · cases kind <;> rfl

theorem reads_term (closed : ctx.Closed) :
    Reads ctx bound [] (term ctx) (fun _ => term ctx) (WordOf IsTerm) := by
  rw [term_eq]
  refine Reads.eatOneOf (by decide) ?_ ?_
  · exact fun token mem => Reads.pure ⟨.simple token mem, rfl⟩
  refine Reads.peek.bind ?_
  rintro kind total rfl
  have number : Reads ctx bound [] (number ctx) (fun _ => Grammar.number ctx) (WordOf IsTerm) :=
    (reads_number closed).imp fun tree taken word => ⟨.number tree word.1, word.2⟩
  split
  · exact number
  · exact number
  · exact (reads_field closed).imp fun tree taken word => ⟨.field tree word.1, word.2⟩
  · exact Reads.halt closed ⟨.leaf (tokenOf .string), [tokenOf .string], .simple _ rfl, rfl⟩

theorem reads_value (closed : ctx.Closed) :
    Reads ctx bound [] (value ctx) (fun _ => value ctx) (WordOf IsValue) := by
  refine (reads_term closed).step ?_
  rintro first taken ⟨is_term, rfl⟩
  refine Reads.eatOneOf (by decide) ?_ ?_
  · intro sign sign_mem
    refine (reads_number closed).step ?_
    rintro offset taken ⟨is_number, rfl⟩
    exact Reads.node (node_shifted is_term sign_mem is_number)
      ⟨.shifted first sign offset is_term sign_mem is_number, by simp⟩
  · exact Reads.node (node_value is_term) ⟨.plain first is_term, by simp⟩

theorem reads_valueList (closed : ctx.Closed) :
    Reads ctx bound [] (valueList ctx) (fun _ => valueList ctx) (WordOf IsValueList) := by
  refine reads_linked (by decide) ?_ ?_
  · rintro trees tail ⟨value, rfl, is_value⟩
    exact node_valueList (.head _) is_value
  · refine (reads_value closed).step ?_
    rintro value taken ⟨is_value, rfl⟩
    exact Reads.pure ⟨⟨value, rfl, is_value⟩, by simp⟩

theorem reads_operatorProper (closed : ctx.Closed) :
    Reads ctx bound [] (operatorProper ctx) (fun _ => operatorProper ctx)
      (WordOf IsOperatorProper) := by
  refine Reads.eat (by decide) ?_ (Reads.eat (by decide) ?_ (Reads.eatOneOf (by decide) ?_ ?_))
  · intro contains contains_kind
    refine Reads.eat (by decide) ?_ ?_
    · intro words words_kind
      exact Reads.node (node_containsWords contains_kind words_kind)
        ⟨.containsWords contains words contains_kind words_kind, rfl⟩
    · exact Reads.pure ⟨.single contains (.inr (.inr contains_kind)), rfl⟩
  · intro word word_kind
    refine (reads_expectToken closed (by decide)).step ?_
    rintro group taken ⟨rfl, group_kind⟩
    exact Reads.node (node_inGroup _) ⟨.inGroup word group word_kind group_kind, rfl⟩
  · intro token mem
    refine Reads.pure ⟨.single token ?_, rfl⟩
    rcases KindSet.mem_union.1 mem with mem | mem
    · exact .inl mem
    · exact .inr (.inl (KindSet.mem_single.1 mem))
  · exact Reads.halt closed ⟨.leaf (tokenOf .equals), [tokenOf .equals], .single _ (.inl rfl), rfl⟩

theorem operatorProper_of_in {token : Token} (token_kind : token.kind = .inKw)
    (rest : List Token) :
    operatorProper ctx (token :: rest) =
      (expectToken ctx .groupKw >>= fun group =>
        liftM (node .inGroup [.leaf token, .leaf group])) rest := by
  have no_contains : nextKind (token :: rest) ≠ .containsKw := by
    rw [nextKind_cons, token_kind]
    nofun
  rw [operatorProper, bind_of_ok (eat_of_ne no_contains)]
  exact bind_of_ok (eat_cons token_kind rest)

theorem operatorProper_of_ne {tokens : List Token}
    (not_contains : nextKind tokens ≠ .containsKw) (not_in : nextKind tokens ≠ .inKw) :
    operatorProper ctx tokens = (do
      match ← eatOneOf (KindSet.comparisonOperators.union (.single .everKw)) with
      | some token => return Tree.leaf token
      | none => halt ctx .expectedOperator) tokens := by
  rw [operatorProper, bind_of_ok (eat_of_ne not_contains)]
  exact bind_of_ok (eat_of_ne not_in)

theorem operatorProper_of_inGroup {word group : Token} (word_kind : word.kind = .inKw)
    (group_kind : group.kind = .groupKw) (rest : List Token) :
    operatorProper ctx (word :: group :: rest) =
      .ok (.node .inGroup [.leaf word, .leaf group], rest) := by
  rw [operatorProper_of_in word_kind, bind_of_ok (expectToken_cons group_kind rest)]
  exact liftM_node (node_inGroup _) rest

/-- Behind `NOT` or nothing, the word `IN` and the token behind it tell whether a list follows. -/
theorem startsMembership_of_optional {tokens rest : List Token} {negation : List Tree}
    (optional_eq : optional (.single .notKw) tokens = .ok (negation, rest)) :
    startsMembership tokens = (nextKind rest == .inKw && kindAt rest 1 != .groupKw) := by
  by_cases negated : nextKind tokens = .notKw
  · obtain ⟨token, behind, rfl, -⟩ := exists_cons_of_nextKind (by rw [negated]; nofun)
    rw [optional_cons (KindSet.mem_single.2 negated)] at optional_eq
    cases optional_eq
    rw [nextKind_cons] at negated
    simp [startsMembership, kindAt, negated]
  · rw [optional_of_notMem (by simpa using negated)] at optional_eq
    cases optional_eq
    simp [startsMembership, kindAt, negated]

theorem comparison_apply (ctx : Context) (tokens : List Token) :
    comparison ctx tokens =
      if startsMembership tokens then membership ctx tokens
      else (operator ctx >>= fun relation => value ctx >>= fun right => pure [relation, right])
        tokens := by
  change (if startsMembership tokens = true then _ else _ : Production _) tokens = _
  split <;> rfl

/-- After `NOT` or nothing, the word `IN` and the token behind it tell a list from an operator. -/
theorem comparison_eq (ctx : Context) :
    comparison ctx = (do
      let negation ← optional (.single .notKw)
      match ← eat .inKw with
      | some word =>
        match ← eat .groupKw with
        | some group => do
          let proper ← node .inGroup [.leaf word, .leaf group]
          let relation ← node .operator (negation ++ [proper])
          let right ← value ctx
          return [relation, right]
        | none => do
          let opened ← expectToken ctx .leftParen
          let values ← valueList ctx
          let closed ← closeParen ctx opened.span
          return negation ++ [.leaf word, .leaf opened, values, .leaf closed]
      | none => do
        let proper ← operatorProper ctx
        let relation ← node .operator (negation ++ [proper])
        let right ← value ctx
        return [relation, right]) := by
  funext tokens
  obtain ⟨negation, rest, optional_eq⟩ := exists_optional_eq (.single .notKw) tokens
  rw [comparison_apply, startsMembership_of_optional optional_eq, bind_of_ok optional_eq]
  by_cases in_kind : nextKind rest = .inKw
  · obtain ⟨word, rest, rfl, -⟩ := exists_cons_of_nextKind (by rw [in_kind]; nofun)
    rw [nextKind_cons] at in_kind
    rw [bind_of_ok (eat_cons in_kind rest)]
    by_cases group_kind : nextKind rest = .groupKw
    · obtain ⟨group, rest, rfl, -⟩ := exists_cons_of_nextKind (by rw [group_kind]; nofun)
      rw [nextKind_cons] at group_kind
      have operator_eq : operator ctx tokens =
          (liftM (node .operator (negation ++ [.node .inGroup [.leaf word, .leaf group]])) :
            Production Tree) rest := by
        rw [operator, bind_of_ok optional_eq,
          bind_of_ok (operatorProper_of_inGroup in_kind group_kind rest)]
      rw [if_neg (by simp [kindAt, group_kind]), bind_apply, operator_eq]
      dsimp only
      rw [bind_of_ok (eat_cons group_kind rest)]
      dsimp only
      rw [node_inGroup]
      rfl
    · rw [if_pos (by simp [kindAt, in_kind, group_kind]), membership, bind_of_ok optional_eq,
        bind_of_ok (expectToken_cons in_kind rest)]
      dsimp only
      rw [bind_of_ok (eat_of_ne group_kind)]
  · rw [if_neg (by simp [in_kind]), bind_of_ok (eat_of_ne in_kind), operator, bind_apply,
      bind_of_ok optional_eq]
    dsimp only
    rw [bind_apply, bind_apply]
    cases operatorProper ctx rest <;> rfl

theorem reads_comparison (closed : ctx.Closed) :
    Reads ctx bound [] (comparison ctx) (fun _ => comparison ctx) (WordOfAll IsComparison) := by
  rw [comparison_eq]
  -- What follows a complete operator is a value.
  have reads_compare : ∀ (bound : Nat) (operator : Tree), IsOperator operator →
      Reads ctx bound operator.tokens
        (do let right ← value ctx; return [operator, right])
        (fun _ => do let right ← value ctx; return [operator, right])
        (WordOfAll IsComparison) := by
    intro bound operator is_operator
    refine (reads_value closed).step ?_
    rintro right taken ⟨is_value, rfl⟩
    exact Reads.pure ⟨.compare operator right is_operator is_value, by simp⟩
  refine (reads_optional (by decide)).step ?_
  rintro negation taken ⟨is_negation, rfl⟩
  refine Reads.eat (by decide) ?_ ?_
  · intro word word_kind
    refine Reads.eat (by decide) ?_ ?_
    · intro group group_kind
      have is_proper := IsOperatorProper.inGroup word group word_kind group_kind
      refine Reads.node_bind (node_inGroup _) (Reads.node_bind (node_operator is_proper) ?_)
      simpa using reads_compare _ _ (.operator negation _ is_negation is_proper)
    · refine (reads_expectToken closed (by decide)).step ?_
      rintro opened taken ⟨rfl, opened_kind⟩
      refine (reads_valueList closed).step ?_
      rintro values taken ⟨is_values, rfl⟩
      have innermost := isInnermost_of_balanced opened_kind is_values.balanced.toPlain
      refine (reads_closeParen closed (innermost _)).bind ?_
      rintro closed total ⟨rfl, closed_kind⟩
      exact Reads.pure ⟨.member negation word opened values closed is_negation word_kind
        opened_kind is_values closed_kind, by simp⟩
  · refine (reads_operatorProper closed).step ?_
    rintro proper taken ⟨is_proper, rfl⟩
    refine Reads.node_bind (node_operator is_proper) ?_
    simpa using reads_compare _ _ (.operator negation proper is_negation is_proper)

/-! ## Conditions -/

theorem reads_side (closed : ctx.Closed) {word : Token} (word_mem : word.kind ∈ KindSet.linkSide) :
    Reads ctx bound [word] (side ctx word) (fun _ => side ctx word) (WordOf IsSide) := by
  refine (reads_expectToken closed (by decide)).step ?_
  rintro dot taken ⟨rfl, dot_kind⟩
  have kinds : ∀ kind : Kind, kind ∈ KindSet.linkSide → kind = .sourceKw ∨ kind = .targetKw := by
    decide
  obtain word_kind | word_kind := kinds _ word_mem
  · have is_side := IsSide.source word dot word_kind dot_kind
    rw [if_pos word_kind]
    exact Reads.node (node_side is_side) ⟨is_side, rfl⟩
  · have is_side := IsSide.target word dot word_kind dot_kind
    rw [if_neg (by rw [word_kind]; nofun)]
    exact Reads.node (node_side is_side) ⟨is_side, rfl⟩

theorem reads_sideOf (closed : ctx.Closed) (form : Dialect) :
    Reads ctx bound [] (sideOf form ctx) (fun _ => sideOf form ctx)
      (WordOfAll (IsOptionalSide form)) := by
  unfold sideOf
  split
  · rename_i has_sides
    refine Reads.eatOneOf (by decide) ?_ (Reads.pure ⟨.absent, rfl⟩)
    intro word mem
    refine (reads_side closed mem).bind ?_
    rintro side total ⟨is_side, rfl⟩
    exact Reads.pure ⟨.present side has_sides is_side, by simp⟩
  · exact Reads.pure ⟨.absent, rfl⟩

theorem reads_leafCondition (closed : ctx.Closed) {form : Dialect} (is_form : IsForm form) :
    Reads ctx bound [] (leafCondition ctx form) (fun _ => leafCondition ctx form)
      (WordOf (IsCondition form)) := by
  refine Reads.peek.bind ?_
  rintro start total rfl
  split
  · refine (reads_sideOf closed form).step ?_
    rintro side taken ⟨is_side, rfl⟩
    refine (reads_field closed).step ?_
    rintro name taken ⟨is_field, rfl⟩
    refine (reads_comparison closed).step ?_
    rintro rest taken ⟨is_comparison, rfl⟩
    exact Reads.node (node_leafCondition is_form is_side is_field is_comparison)
      ⟨.leaf side name rest is_side is_field is_comparison, by simp⟩
  · -- Every form of conditions has a condition without parentheses.
    have is_value : IsValue _ := .plain _ (.simple (tokenOf .string) rfl)
    have is_operator : IsOperator _ :=
      .operator [] _ .absent (.single (tokenOf .equals) (.inl rfl))
    exact Reads.halt closed ⟨_, _, .leaf [] _ _ .absent (.name (tokenOf .identifier) rfl)
      (.compare _ _ is_operator is_value), rfl⟩

/-- A condition keeps the contract for token lists that are longer by its parenthesis. -/
theorem reads_condition (closed : ctx.Closed) {form : Dialect} (is_form : IsForm form)
    {nested : Production Tree} {nested' : Nat → Production Tree}
    (reads_nested : Reads ctx bound [] nested nested' (WordOf (IsExpression form))) :
    Reads ctx (bound + 1) [] (condition ctx form nested)
      (fun extra => condition ctx form (nested' extra))
      (WordOf (IsCondition form)) := by
  refine Reads.eat (by decide) ?_ (reads_leafCondition closed is_form)
  intro opened opened_kind
  refine Reads.step reads_nested ?_
  rintro inner taken ⟨is_expression, rfl⟩
  have innermost := isInnermost_of_balanced opened_kind is_expression.balanced.toPlain
  refine (reads_closeParen closed (innermost _)).bind ?_
  rintro closed total ⟨rfl, closed_kind⟩
  exact Reads.node (node_nested is_form opened_kind is_expression closed_kind)
    ⟨.nested opened inner closed opened_kind is_expression closed_kind, by simp⟩

/-- The items of an expression: a condition, with `EVER` or `NOT` before it or not. -/
def IsModified (form : Dialect) (trees : List Tree) : Prop :=
  ∃ modifier condition, IsOptional .everNot modifier ∧ IsCondition form condition ∧
    trees = modifier ++ [condition]

theorem isExpression_of_isChain {form : Dialect} {tree : Tree}
    (is_chain : IsChain form.expression .andOr (IsModified form) tree) : IsExpression form tree := by
  induction is_chain with
  | last trees is_item =>
      obtain ⟨modifier, condition, is_modifier, is_condition, rfl⟩ := is_item
      exact .last modifier condition is_modifier is_condition
  | more trees separator rest is_item mem _ ih =>
      obtain ⟨modifier, condition, is_modifier, is_condition, rfl⟩ := is_item
      rw [List.append_assoc]
      exact .more modifier condition separator rest is_modifier is_condition mem ih

/-- The items of an expression are read one by one. -/
def modified (ctx : Context) (form : Dialect) (nested : Production Tree) :
    Production (List Tree) := do
  let modifier ← optional .everNot
  let tree ← condition ctx form nested
  return modifier ++ [tree]

theorem conditions_eq (ctx : Context) (form : Dialect) (nested : Production Tree) :
    conditions ctx form nested = linked form.expression .andOr (modified ctx form nested) := rfl

section

variable {form : Dialect} {nested : Production Tree} {nested' : Nat → Production Tree}

theorem reads_modified (closed : ctx.Closed) (is_form : IsForm form)
    (reads_nested : Reads ctx bound [] nested nested' (WordOf (IsExpression form))) :
    Reads ctx (bound + 1) [] (modified ctx form nested)
      (fun extra => modified ctx form (nested' extra)) (WordOfAll (IsModified form)) := by
  refine (reads_optional (by decide)).step ?_
  rintro modifier taken ⟨is_modifier, rfl⟩
  refine Reads.step (reads_condition closed is_form reads_nested) ?_
  rintro tree taken ⟨is_condition, rfl⟩
  exact Reads.pure ⟨⟨modifier, tree, is_modifier, is_condition, rfl⟩, by simp⟩

theorem reads_conditions (closed : ctx.Closed) (is_form : IsForm form)
    (reads_nested : Reads ctx bound [] nested nested' (WordOf (IsExpression form))) :
    Reads ctx (bound + 1) [] (conditions ctx form nested)
      (fun extra => conditions ctx form (nested' extra)) (WordOf (IsExpression form)) := by
  have reads_chain : Reads ctx (bound + 1) [] (conditions ctx form nested)
      (fun extra => conditions ctx form (nested' extra))
      (WordOf (IsChain form.expression .andOr (IsModified form))) := by
    refine reads_linked (by decide) ?_ (reads_modified closed is_form reads_nested)
    rintro trees tail ⟨modifier, condition, is_modifier, is_condition, rfl⟩
    exact node_expression is_form (by simp) is_condition
  exact reads_chain.imp fun tree taken word => ⟨isExpression_of_isChain word.1, word.2⟩

end

/-- What stands between parentheses where they may nest up to a depth. -/
def nestedExpression (ctx : Context) (form : Dialect) : Nat → Production Tree
  | 0 => throw (.fault .recursionLimit)
  | depth + 1 => expression ctx form depth

theorem expression_eq (ctx : Context) (form : Dialect) (depth : Nat) :
    expression ctx form depth = conditions ctx form (nestedExpression ctx form depth) := by
  cases depth <;> rfl

theorem reads_expression (closed : ctx.Closed) {form : Dialect} (is_form : IsForm form)
    (depth : Nat) :
    Reads ctx (depth + 1) [] (expression ctx form depth)
      (fun extra => expression ctx form (extra + depth)) (WordOf (IsExpression form)) := by
  induction depth with
  | zero =>
      -- Below this bound there are no tokens, and so there is no parenthesis.
      have nothing : Reads ctx 0 [] (nestedExpression ctx form 0)
          (fun extra => nestedExpression ctx form (extra + 0)) (WordOf (IsExpression form)) :=
        fun _ short => absurd short (Nat.not_lt_zero _)
      simp only [expression_eq]
      exact reads_conditions closed is_form nothing
  | succ depth ih => exact reads_conditions closed is_form ih

/-! ## Queries -/

theorem reads_fieldList (closed : ctx.Closed) :
    Reads ctx bound [] (fieldList ctx) (fun _ => fieldList ctx) (WordOf IsFieldList) := by
  refine reads_linked (by decide) ?_ ?_
  · rintro trees tail ⟨field, rfl, is_field⟩
    exact node_list (.inl rfl) (.head _) is_field.kind_eq
  · refine (reads_field closed).step ?_
    rintro name taken ⟨is_field, rfl⟩
    exact Reads.pure ⟨⟨name, rfl, is_field⟩, by simp⟩

theorem reads_orderList (closed : ctx.Closed) {form : Dialect} (is_form : IsForm form) :
    Reads ctx bound [] (orderList ctx form) (fun _ => orderList ctx form)
      (WordOf (IsOrderList form)) := by
  refine reads_linked (by decide) ?_ ?_
  · rintro trees tail ⟨side, field, direction, is_side, is_field, is_direction⟩
    refine node_list ?_ (by simp) is_field.kind_eq
    obtain rfl | rfl := is_form <;> simp [Dialect.flat, Dialect.link]
  · refine (reads_sideOf closed form).step ?_
    rintro side taken ⟨is_side, rfl⟩
    refine (reads_field closed).step ?_
    rintro name taken ⟨is_field, rfl⟩
    refine (reads_optional (by decide)).step ?_
    rintro direction taken ⟨is_direction, rfl⟩
    exact Reads.pure ⟨.key side name direction is_side is_field is_direction, by simp⟩

theorem reads_clause {word : Kind} (not_end : word ≠ .endMark) {body : Production Tree}
    {body' : Nat → Production Tree} {IsBody : Tree → Prop}
    (reads_body : Reads ctx bound [] body body' (WordOf IsBody)) :
    Reads ctx bound [] (clause word body) (fun extra => clause word (body' extra))
      (WordOfAll (IsClause word IsBody)) := by
  refine Reads.eat not_end ?_ (Reads.pure ⟨.absent, rfl⟩)
  intro found found_kind
  refine Reads.step (reads_body.mono (Nat.sub_le ..)) ?_
  rintro tree taken ⟨is_body, rfl⟩
  exact Reads.pure ⟨.present found tree found_kind is_body, by simp⟩

/-- The word of a kind of query and trees that determine it. -/
def WordOfKind (IsTrees : Kind → List Tree → Prop) (answer : Kind × List Tree)
    (taken : List Token) : Prop :=
  IsTrees answer.1 answer.2 ∧ Tree.tokensAll answer.2 = taken

theorem reads_mode (closed : ctx.Closed) :
    Reads ctx bound [] (mode ctx) (fun _ => mode ctx) (WordOfKind IsMode) := by
  refine Reads.eatOneOf (by decide) ?_ (Reads.eat (by decide) ?_ ?_)
  · exact fun word mem => Reads.pure ⟨.oneHop word mem, rfl⟩
  · intro word word_kind
    refine Reads.eat (by decide) ?_ ?_
    · intro comma comma_kind
      refine (reads_expectToken closed (by decide)).step ?_
      rintro matching taken ⟨rfl, matching_kind⟩
      exact Reads.pure ⟨.matching word comma matching word_kind comma_kind matching_kind, rfl⟩
    · exact Reads.pure ⟨.recursive word word_kind, rfl⟩
  · exact Reads.halt closed
      ⟨(.recursiveSelect, [.leaf (tokenOf .recursiveKw)]), _, .recursive _ rfl, rfl⟩

theorem reads_modeClause (closed : ctx.Closed) :
    Reads ctx bound [] (modeClause ctx) (fun _ => modeClause ctx) (WordOfKind IsModeClause) := by
  refine Reads.eat (by decide) ?_ (Reads.pure ⟨.absent, rfl⟩)
  intro word word_kind
  refine (reads_expectToken closed (by decide)).step ?_
  rintro opened taken ⟨rfl, opened_kind⟩
  refine (reads_mode closed).step ?_
  rintro ⟨kind, inside⟩ taken ⟨is_mode, rfl⟩
  have innermost := isInnermost_of_balanced opened_kind is_mode.balanced
  refine (reads_closeParen closed (innermost _)).bind ?_
  rintro closed total ⟨rfl, closed_kind⟩
  exact Reads.pure
    ⟨.present kind word opened inside closed word_kind opened_kind is_mode closed_kind, by simp⟩

theorem reads_linkClauses (closed : ctx.Closed) :
    Reads ctx bound [] (linkClauses ctx) (fun _ => linkClauses ctx) (WordOfKind IsLinkClauses) := by
  have reads_asof : Reads ctx bound [] (clause .asofKw (date ctx))
      (fun _ => clause .asofKw (date ctx))
      (WordOfAll (IsClause .asofKw IsDate)) := reads_clause (by decide) (reads_date closed)
  refine Reads.peek.bind ?_
  rintro start total rfl
  split
  · refine (reads_modeClause closed).step ?_
    rintro ⟨kind, mode⟩ taken ⟨is_mode, rfl⟩
    refine Reads.step reads_asof ?_
    rintro asof taken ⟨is_date, rfl⟩
    exact Reads.pure ⟨.modeFirst kind mode asof is_mode is_date, by simp⟩
  · refine Reads.step reads_asof ?_
    rintro asof taken ⟨is_date, rfl⟩
    refine (reads_modeClause closed).step ?_
    rintro ⟨kind, mode⟩ taken ⟨is_mode, rfl⟩
    exact Reads.pure ⟨.dateFirst kind asof mode is_date is_mode, by simp⟩

theorem reads_filterClauses (closed : ctx.Closed) {form : Dialect} (is_form : IsForm form)
    (depth : Nat) :
    Reads ctx (depth + 1) [] (filterClauses ctx form depth)
      (fun extra => filterClauses ctx form (extra + depth)) (WordOfAll (IsFilter form)) := by
  refine (reads_clause (by decide) (reads_expression closed is_form depth)).step ?_
  rintro filter taken ⟨is_filter, rfl⟩
  refine (reads_clause (by decide) (reads_orderList closed is_form)).step ?_
  rintro order taken ⟨is_order, rfl⟩
  exact Reads.pure ⟨.filter filter order is_filter is_order, by simp⟩

theorem reads_flatTail (closed : ctx.Closed) (depth : Nat)
    {head : List Tree} (is_head : IsHead .workItemsKw head) :
    Reads ctx (depth + 1) (Tree.tokensAll head) (flatTail ctx depth head)
      (fun extra => flatTail ctx (extra + depth) head) (WordOf IsQuery) := by
  refine (reads_filterClauses closed (.inl rfl) depth).step ?_
  rintro filter taken ⟨is_filter, rfl⟩
  refine (reads_clause (by decide) (reads_date closed)).step ?_
  rintro asof taken ⟨is_date, rfl⟩
  have is_query := IsQuery.flat head filter asof is_head is_filter is_date
  refine Reads.peek.bind ?_
  rintro start total rfl
  split
  · exact Reads.halt closed ⟨_, [], is_query, by simp⟩
  · obtain ⟨select, fields, origin, place, _, is_fields, _, _⟩ := is_head
    exact Reads.node (node_select (.inl rfl) (by simp) (IsChain.kind_eq is_fields))
      ⟨is_query, by simp⟩

theorem reads_linkTail (closed : ctx.Closed) (depth : Nat)
    {head : List Tree} (is_head : IsHead .workItemLinksKw head) :
    Reads ctx (depth + 1) (Tree.tokensAll head) (linkTail ctx depth head)
      (fun extra => linkTail ctx (extra + depth) head) (WordOf IsQuery) := by
  refine (reads_filterClauses closed (.inr rfl) depth).step ?_
  rintro filter taken ⟨is_filter, rfl⟩
  refine (reads_linkClauses closed).step ?_
  rintro ⟨kind, clauses⟩ taken ⟨is_clauses, rfl⟩
  have is_query := IsQuery.link kind head filter clauses is_head is_filter is_clauses
  obtain ⟨select, fields, origin, place, _, is_fields, _, _⟩ := is_head
  exact Reads.node (node_select (.inr is_clauses.kind_eq) (by simp) (IsChain.kind_eq is_fields))
    ⟨is_query, by simp⟩

theorem reads_query (closed : ctx.Closed) (depth : Nat) :
    Reads ctx (depth + 1) [] (query ctx depth) (fun extra => query ctx (extra + depth))
      (WordOf IsQuery) := by
  refine (reads_expect closed (by decide) _).step ?_
  rintro select taken ⟨rfl, select_kind⟩
  refine (reads_fieldList closed).step ?_
  rintro fields taken ⟨is_fields, rfl⟩
  refine (reads_expect closed (by decide) _).step ?_
  rintro origin taken ⟨rfl, origin_kind⟩
  have is_head : ∀ kind (place : Token), place.kind = kind → IsHead kind _ :=
    fun kind place => .head select fields origin place select_kind is_fields origin_kind
  refine Reads.eat (by decide) ?_ (Reads.eat (by decide) ?_ ?_)
  · intro source source_kind
    have tail := reads_flatTail closed depth (is_head _ source source_kind)
    simpa using tail.mono (Nat.le_succ depth)
  · intro source source_kind
    have tail := reads_linkTail closed depth (is_head _ source source_kind)
    simpa using tail.mono (Nat.le_succ depth)
  · have is_query := IsQuery.flat _ _ _ (is_head _ (tokenOf .workItemsKw) rfl)
      (.filter [] [] .absent .absent) .absent
    exact Reads.halt closed ⟨_, [tokenOf .workItemsKw], is_query, by simp⟩

end Grammar
end WorkItemQuery
