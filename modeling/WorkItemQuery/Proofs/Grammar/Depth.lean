import WorkItemQuery.Proofs.Grammar.Limit
import WorkItemQuery.Proofs.Grammar.Misfit

/-!
# How deep parentheses nest

Reading a query without a limit goes into the parentheses of its conditions up to some depth, even
where it stops before they are closed.  The limits below this depth are run into, and all others
give the answer that there is without a limit.  The depth of a query that is read to its end is the
nesting of its tree: no other parentheses count, and no list does.
-/

namespace WorkItemQuery
namespace Grammar

variable {α β : Type} {ctx : Context} {tokens rest : List Token}

/-! ## The depth that is gone into -/

/-- Reading a chain of conditions without a limit goes in behind so many open parentheses.  An
item is read without a limit where parentheses may nest as deep as there are tokens. -/
inductive Enters (ctx : Context) (form : Dialect) : List Token → Nat → Prop where
  /-- The chain itself stands behind no parenthesis. -/
  | chain (tokens : List Token) : Enters ctx form tokens 0
  /-- The first condition is a parenthesis, and a chain stands behind it. -/
  | inside (tokens : List Token) (modifier : List Tree) (opened : Token) (inner : List Token)
      (depth : Nat) : optional .everNot tokens = .ok (modifier, opened :: inner) →
      opened.kind = .leftParen → Enters ctx form inner depth → Enters ctx form tokens (depth + 1)
  /-- The first condition is read, and the chain goes on behind a connective. -/
  | behind (tokens : List Token) (item : List Tree) (connective : Token) (rest : List Token)
      (depth : Nat) :
      modified ctx form (expression ctx form tokens.length) tokens = .ok (item, connective :: rest) →
      connective.kind ∈ KindSet.andOr → Enters ctx form rest depth → Enters ctx form tokens depth

/-- Reading a query reaches its conditions, of a form, with some tokens left. -/
inductive ReachesConditions (ctx : Context) (form : Dialect) (tokens rest : List Token) : Prop where
  | reached (select : Token) (behindSelect : List Token) (fields : Tree) (behindFields : List Token)
      (origin place word : Token) :
      expect ctx .selectKw .expectedSelect tokens = .ok (select, behindSelect) →
      fieldList ctx behindSelect = .ok (fields, behindFields) →
      expect ctx .fromKw .expectedFrom behindFields = .ok (origin, place :: word :: rest) →
      (form = .flat ∧ place.kind = .workItemsKw ∨ form = .link ∧ place.kind = .workItemLinksKw) →
      word.kind = .whereKw → ReachesConditions ctx form tokens rest

/-- Reading a query without a limit goes in behind so many open parentheses of its conditions. -/
inductive QueryEnters (ctx : Context) (tokens : List Token) : Nat → Prop where
  | query : QueryEnters ctx tokens 0
  | conditions (form : Dialect) (rest : List Token) (depth : Nat) :
      ReachesConditions ctx form tokens rest → Enters ctx form rest depth →
      QueryEnters ctx tokens depth

/-- The depth is the largest that reading a query without a limit goes into. -/
def IsDeepest (ctx : Context) (tokens : List Token) (depth : Nat) : Prop :=
  QueryEnters ctx tokens depth ∧ ∀ other, QueryEnters ctx tokens other → other ≤ depth

/-! ## Limits and the depth of a chain -/

section

variable {form : Dialect} {limit depth : Nat}

theorem not_limited_modified (closed : ctx.Closed) (is_form : IsForm form) :
    ¬ Limited (modified ctx form (expression ctx form tokens.length)) tokens := by
  have reads_item := reads_modified closed is_form (reads_expression closed is_form tokens.length)
  exact reads_item.not_limited (by omega)

/-- The limits that are not run into do not change what an item is read as. -/
theorem modified_eq_of_free {limit limit' : Nat}
    (free : ¬ Limited (modified ctx form (nestedExpression ctx form limit)) tokens)
    (free' : ¬ Limited (modified ctx form (nestedExpression ctx form limit')) tokens) :
    modified ctx form (nestedExpression ctx form limit) tokens =
      modified ctx form (nestedExpression ctx form limit') tokens := by
  have grows : ∀ limit limit', limit ≤ limit' →
      Approximates (modified ctx form (nestedExpression ctx form limit))
        (modified ctx form (nestedExpression ctx form limit')) :=
    fun limit limit' le => (Approximates.nestedExpression le).modified
  exact Approximates.eq_of_free grows free free'

theorem modified_eq_of_not_limited (closed : ctx.Closed) (is_form : IsForm form)
    (free : ¬ Limited (modified ctx form (nestedExpression ctx form limit)) tokens) :
    modified ctx form (expression ctx form tokens.length) tokens =
      modified ctx form (nestedExpression ctx form limit) tokens := by
  have free_length : ¬ Limited
      (modified ctx form (nestedExpression ctx form (tokens.length + 1))) tokens :=
    not_limited_modified closed is_form
  exact modified_eq_of_free free_length free

theorem length_lt_of_modified (closed : ctx.Closed) (is_form : IsForm form) {item : List Tree}
    {connective : Token}
    (item_eq : modified ctx form (expression ctx form tokens.length) tokens =
      .ok (item, connective :: rest)) : rest.length < tokens.length := by
  have reads_item := reads_modified closed is_form (reads_expression closed is_form tokens.length)
  have outcome := reads_item tokens (by omega)
  rw [item_eq] at outcome
  cases outcome with
  | taken item taken _ tokens_eq =>
      rw [tokens_eq, List.length_append, List.length_cons]
      omega

/-- A step of a chain that runs into the limit goes deeper than the limit. -/
theorem enters_of_limited_steps (closed : ctx.Closed) (is_form : IsForm form)
    (enters_inner : ∀ inner, Limited (nestedExpression ctx form limit) inner →
      ∃ depth, limit < depth + 1 ∧ Enters ctx form inner depth) (steps : Nat)
    (limited : Limited (elementsWithin (modified ctx form (nestedExpression ctx form limit)) .andOr
      steps) tokens) : ∃ depth, limit < depth ∧ Enters ctx form tokens depth := by
  induction steps generalizing tokens with
  | zero => cases limited
  | succ steps ih =>
      by_cases item_limited : Limited (modified ctx form (nestedExpression ctx form limit)) tokens
      · obtain ⟨modifier, opened, inner, modifier_eq, opened_kind, inner_limited⟩ :=
          (limited_modified closed is_form).1 item_limited
        obtain ⟨depth, deeper, enters⟩ := enters_inner inner inner_limited
        exact ⟨depth + 1, deeper, .inside tokens modifier opened inner depth modifier_eq opened_kind
          enters⟩
      · have unlimited_eq := modified_eq_of_not_limited closed is_form item_limited
        cases item_eq : modified ctx form (nestedExpression ctx form limit) tokens with
        | error stop =>
            rw [Limited, elementsWithin_of_error item_eq] at limited
            cases limited
            exact absurd item_eq item_limited
        | ok answer =>
            obtain ⟨item, rest⟩ := answer
            by_cases mem : nextKind rest ∈ KindSet.andOr
            · obtain ⟨connective, rest, rfl, -⟩ := exists_cons_of_nextKind fun at_end =>
                absurd (at_end ▸ mem) (by decide)
              rw [limited_elementsWithin_of_more steps item_eq mem] at limited
              obtain ⟨depth, deeper, enters⟩ := ih limited
              exact ⟨depth, deeper, .behind tokens item connective rest depth
                (unlimited_eq.trans item_eq) mem enters⟩
            · rw [Limited, elementsWithin_of_last item_eq mem] at limited
              cases limited

theorem enters_of_limited (closed : ctx.Closed) (is_form : IsForm form)
    (limited : Limited (expression ctx form limit) tokens) :
    ∃ depth, limit < depth ∧ Enters ctx form tokens depth := by
  induction limit generalizing tokens with
  | zero =>
      rw [expression_eq, conditions_eq, limited_linked] at limited
      refine enters_of_limited_steps closed is_form ?_ _ limited
      exact fun inner _ => ⟨0, Nat.zero_lt_one, .chain inner⟩
  | succ limit ih =>
      rw [expression_eq, conditions_eq, limited_linked] at limited
      refine enters_of_limited_steps closed is_form ?_ _ limited
      intro inner inner_limited
      obtain ⟨depth, deeper, enters⟩ := ih inner_limited
      exact ⟨depth, Nat.succ_lt_succ deeper, enters⟩

theorem limited_of_enters (closed : ctx.Closed) (is_form : IsForm form)
    (enters : Enters ctx form tokens depth) (deeper : limit < depth) :
    Limited (expression ctx form limit) tokens := by
  induction enters generalizing limit with
  | chain tokens => exact absurd deeper (Nat.not_lt_zero _)
  | inside tokens modifier opened inner depth modifier_eq opened_kind enters ih =>
      have inner_limited : Limited (nestedExpression ctx form limit) inner := by
        cases limit with
        | zero => rfl
        | succ limit => exact ih (Nat.lt_of_succ_lt_succ deeper)
      have item_limited : Limited (modified ctx form (nestedExpression ctx form limit)) tokens :=
        (limited_modified closed is_form).2
          ⟨modifier, opened, inner, modifier_eq, opened_kind, inner_limited⟩
      rw [expression_eq, conditions_eq, limited_linked]
      exact elementsWithin_of_error item_limited _
  | behind tokens item connective rest depth item_eq mem enters ih =>
      have behind_limited := ih deeper
      rw [expression_eq, conditions_eq] at behind_limited ⊢
      by_cases item_limited : Limited (modified ctx form (nestedExpression ctx form limit)) tokens
      · rw [limited_linked]
        exact elementsWithin_of_error item_limited _
      · have limit_eq := modified_eq_of_not_limited closed is_form item_limited
        exact limited_linked_of_more (by decide) (limit_eq.symm.trans item_eq) mem
          (length_lt_of_modified closed is_form item_eq) behind_limited

end

/-! ## Limits and the depth of a query -/

section

variable {form : Dialect} {limit depth : Nat}

theorem limited_filterClauses (closed : ctx.Closed) (is_form : IsForm form) :
    Limited (filterClauses ctx form limit) tokens ↔
      ∃ word rest, tokens = word :: rest ∧ word.kind = .whereKw ∧
        Limited (expression ctx form limit) rest := by
  rw [filterClauses, limited_bind_iff_left, limited_clause (by decide)]
  intro filter rest limited
  obtain ⟨order, _, -, ⟨⟩⟩ := (limited_bind_iff_right
    ((reads_clause (by decide) (reads_orderList closed is_form)).not_limited
      (Nat.lt_succ_self _))).1 limited

theorem limited_flatTail (closed : ctx.Closed) {head : List Tree} :
    Limited (flatTail ctx limit head) tokens ↔
      Limited (filterClauses ctx .flat limit) tokens := by
  rw [flatTail, limited_bind_iff_left]
  intro filter rest limited
  obtain ⟨asof, rest, -, limited⟩ := (limited_bind_iff_right
    ((reads_clause (by decide) (reads_date closed)).not_limited (Nat.lt_succ_self _))).1 limited
  obtain ⟨start, rest, -, limited⟩ := (limited_bind_iff_right (not_limited_of_ok rfl)).1 limited
  split at limited
  · exact not_limited_halt closed _ limited
  · exact not_limited_node _ _ limited

theorem limited_linkTail (closed : ctx.Closed) {head : List Tree} :
    Limited (linkTail ctx limit head) tokens ↔
      Limited (filterClauses ctx .link limit) tokens := by
  rw [linkTail, limited_bind_iff_left]
  intro filter rest limited
  obtain ⟨⟨kind, clauses⟩, rest, -, limited⟩ := (limited_bind_iff_right
    ((reads_linkClauses closed).not_limited (Nat.lt_succ_self _))).1 limited
  exact not_limited_node _ _ limited

/-- A query runs into a limit in its conditions only. -/
theorem limited_query (closed : ctx.Closed) :
    Limited (query ctx limit) tokens ↔
      ∃ form rest, ReachesConditions ctx form tokens rest ∧
        Limited (expression ctx form limit) rest := by
  have free_select : ∀ tokens, ¬ Limited (expect ctx .selectKw .expectedSelect) tokens :=
    fun tokens => (reads_expect closed (by decide) _).not_limited (Nat.lt_succ_self _)
  have free_fields : ∀ tokens, ¬ Limited (fieldList ctx) tokens := fun tokens =>
    (reads_fieldList closed).not_limited (Nat.lt_succ_self _)
  have free_origin : ∀ tokens, ¬ Limited (expect ctx .fromKw .expectedFrom) tokens :=
    fun tokens => (reads_expect closed (by decide) _).not_limited (Nat.lt_succ_self _)
  constructor
  · intro limited
    obtain ⟨select, behind_select, select_eq, limited⟩ :=
      (limited_bind_iff_right (free_select _)).1 limited
    obtain ⟨fields, behind_fields, fields_eq, limited⟩ :=
      (limited_bind_iff_right (free_fields _)).1 limited
    obtain ⟨origin, source, origin_eq, limited⟩ :=
      (limited_bind_iff_right (free_origin _)).1 limited
    -- Behind the source the conditions follow at once, or nothing can run into a limit.
    by_cases flat_kind : nextKind source = .workItemsKw
    · obtain ⟨place, rest, rfl, place_kind⟩ := exists_cons_of_kind flat_kind (by decide)
      rw [Limited, bind_of_ok (eat_cons flat_kind rest)] at limited
      obtain ⟨word, rest, rfl, word_kind, limited⟩ :=
        (limited_filterClauses closed (.inl rfl)).1 ((limited_flatTail closed).1 limited)
      exact ⟨.flat, rest, .reached select behind_select fields behind_fields origin place word
        select_eq fields_eq origin_eq (.inl ⟨rfl, flat_kind⟩) word_kind, limited⟩
    · rw [Limited, bind_of_ok (eat_of_ne flat_kind)] at limited
      by_cases link_kind : nextKind source = .workItemLinksKw
      · obtain ⟨place, rest, rfl, place_kind⟩ := exists_cons_of_kind link_kind (by decide)
        dsimp only at limited
        rw [bind_of_ok (eat_cons link_kind rest)] at limited
        obtain ⟨word, rest, rfl, word_kind, limited⟩ :=
          (limited_filterClauses closed (.inr rfl)).1 ((limited_linkTail closed).1 limited)
        exact ⟨.link, rest, .reached select behind_select fields behind_fields origin place word
          select_eq fields_eq origin_eq (.inr ⟨rfl, link_kind⟩) word_kind, limited⟩
      · dsimp only at limited
        rw [bind_of_ok (eat_of_ne link_kind)] at limited
        exact absurd limited (not_limited_halt closed _)
  · rintro ⟨form, rest, ⟨select, behind_select, fields, behind_fields, origin, place, word, select_eq,
      fields_eq, origin_eq, source, word_kind⟩, limited⟩
    rw [Limited, query, bind_of_ok select_eq, bind_of_ok fields_eq, bind_of_ok origin_eq]
    obtain ⟨rfl, place_kind⟩ | ⟨rfl, place_kind⟩ := source
    · rw [bind_of_ok (eat_cons place_kind _)]
      exact (limited_flatTail closed).2
        ((limited_filterClauses closed (.inl rfl)).2 ⟨word, rest, rfl, word_kind, limited⟩)
    · have not_flat : nextKind (place :: word :: rest) ≠ .workItemsKw := by
        rw [nextKind_cons, place_kind]
        decide
      rw [bind_of_ok (eat_of_ne not_flat)]
      dsimp only
      rw [bind_of_ok (eat_cons place_kind _)]
      exact (limited_linkTail closed).2
        ((limited_filterClauses closed (.inr rfl)).2 ⟨word, rest, rfl, word_kind, limited⟩)

/-- The limits that are run into are those below a depth that is gone into. -/
theorem limited_query_iff (closed : ctx.Closed) :
    Limited (query ctx limit) tokens ↔ ∃ depth, limit < depth ∧ QueryEnters ctx tokens depth := by
  have forms : ∀ form rest, ReachesConditions ctx form tokens rest → IsForm form := by
    rintro form rest ⟨_, _, _, _, _, _, _, _, _, _, ⟨rfl, -⟩ | ⟨rfl, -⟩, _⟩
    · exact .inl rfl
    · exact .inr rfl
  rw [limited_query closed]
  constructor
  · rintro ⟨form, rest, reaches, limited⟩
    obtain ⟨depth, deeper, enters⟩ := enters_of_limited closed (forms form rest reaches) limited
    exact ⟨depth, deeper, .conditions form rest depth reaches enters⟩
  · rintro ⟨depth, deeper, _ | ⟨form, rest, depth, reaches, enters⟩⟩
    · exact absurd deeper (Nat.not_lt_zero _)
    · exact ⟨form, rest, reaches,
        limited_of_enters closed (forms form rest reaches) enters deeper⟩

end

/-! ## Trees that nest nothing -/

theorem nesting_of_kind {kind : Kind} {children : List Tree}
    (not_condition : kind ≠ .condition ∧ kind ≠ .linkCondition) :
    (Tree.node kind children).nesting = Tree.nestingAll children := by
  refine Tree.nesting_of_not_isNesting ?_
  cases kind <;> simp_all [Tree.isNesting]

theorem IsField.nesting {tree : Tree} (is_field : IsField tree) : tree.nesting = 0 := by
  cases is_field
  rfl

theorem IsNumber.nesting {tree : Tree} (is_number : IsNumber tree) : tree.nesting = 0 := by
  cases is_number <;> rfl

theorem IsDate.nesting {tree : Tree} (is_date : IsDate tree) : tree.nesting = 0 := by
  cases is_date
  rfl

theorem IsTerm.nesting {tree : Tree} (is_term : IsTerm tree) : tree.nesting = 0 := by
  cases is_term with
  | number tree is_number => exact is_number.nesting
  | field tree is_field => exact is_field.nesting
  | simple token mem => rfl

theorem IsValue.nesting {tree : Tree} (is_value : IsValue tree) : tree.nesting = 0 := by
  cases is_value with
  | plain term is_term =>
      simp [Tree.nesting, Tree.isNesting, is_term.nesting]
  | shifted term sign offset is_term sign_mem is_number =>
      simp [Tree.nesting, Tree.isNesting, is_term.nesting, is_number.nesting]

theorem IsChain.nesting {kind : Kind} {separators : KindSet} {IsItem : List Tree → Prop}
    {tree : Tree} (is_chain : IsChain kind separators IsItem tree)
    (not_condition : kind ≠ .condition ∧ kind ≠ .linkCondition)
    (item_nesting : ∀ trees, IsItem trees → Tree.nestingAll trees = 0) : tree.nesting = 0 := by
  induction is_chain with
  | last trees is_item =>
      rw [nesting_of_kind not_condition]
      exact item_nesting trees is_item
  | more trees separator rest is_item mem is_chain ih =>
      rw [nesting_of_kind not_condition]
      simp [item_nesting trees is_item, ih]

theorem IsFieldList.nesting {tree : Tree} (is_list : IsFieldList tree) : tree.nesting = 0 := by
  refine IsChain.nesting is_list ⟨nofun, nofun⟩ ?_
  rintro trees ⟨field, rfl, is_field⟩
  simp [is_field.nesting]

theorem IsValueList.nesting {tree : Tree} (is_list : IsValueList tree) : tree.nesting = 0 := by
  refine IsChain.nesting is_list ⟨nofun, nofun⟩ ?_
  rintro trees ⟨value, rfl, is_value⟩
  simp [is_value.nesting]

theorem IsOptional.nestingAll {kinds : KindSet} {trees : List Tree}
    (is_optional : IsOptional kinds trees) : Tree.nestingAll trees = 0 := by
  cases is_optional <;> rfl

theorem IsOptionalSide.nestingAll {form : Dialect} {trees : List Tree}
    (is_side : IsOptionalSide form trees) : Tree.nestingAll trees = 0 := by
  cases is_side with
  | absent => rfl
  | present side has_sides is_side => cases is_side <;> rfl

theorem IsOperator.nesting {tree : Tree} (is_operator : IsOperator tree) : tree.nesting = 0 := by
  cases is_operator with
  | operator negation proper is_negation is_proper =>
      cases is_proper <;> simp [Tree.nesting, Tree.isNesting, is_negation.nestingAll]

theorem IsComparison.nestingAll {trees : List Tree} (is_comparison : IsComparison trees) :
    Tree.nestingAll trees = 0 := by
  cases is_comparison with
  | compare operator value is_operator is_value => simp [is_operator.nesting, is_value.nesting]
  | member negation word opened values closed is_negation word_kind opened_kind is_values =>
      simp [is_negation.nestingAll, is_values.nesting]

theorem nesting_leafCondition {form : Dialect} (is_form : IsForm form) {side comparison : List Tree}
    {field : Tree} (is_side : IsOptionalSide form side) (is_field : IsField field)
    (is_comparison : IsComparison comparison) :
    (Tree.node form.condition (side ++ field :: comparison)).nesting = 0 := by
  have any_eq : ∀ kind : Kind, ((side ++ field :: comparison).any fun child => child.kind == kind) =
      ((side.map Tree.kind).any (· == kind) || Kind.field == kind ||
        (comparison.map Tree.kind).any (· == kind)) := by
    intro kind
    rw [List.any_append, List.any_cons, List.any_map, List.any_map, is_field.kind_eq, Bool.or_assoc]
    rfl
  have not_nesting : Tree.isNesting form.condition (side ++ field :: comparison) = false := by
    obtain rfl | rfl := is_form <;>
      simp only [Tree.isNesting, Dialect.flat, Dialect.link, any_eq] <;>
      obtain side_eq | side_eq | side_eq := is_side.kinds_eq <;>
      obtain comparison_eq | comparison_eq | comparison_eq := is_comparison.kinds_eq <;>
      rw [side_eq, comparison_eq] <;> rfl
  rw [Tree.nesting_of_not_isNesting not_nesting]
  simp [is_side.nestingAll, is_field.nesting, is_comparison.nestingAll]

theorem IsOrderList.nesting {form : Dialect} (is_form : IsForm form) {tree : Tree}
    (is_list : IsOrderList form tree) : tree.nesting = 0 := by
  have not_condition : form.order ≠ .condition ∧ form.order ≠ .linkCondition := by
    obtain rfl | rfl := is_form <;> exact ⟨nofun, nofun⟩
  refine IsChain.nesting is_list not_condition ?_
  rintro trees ⟨side, field, direction, is_side, is_field, is_direction⟩
  simp [is_side.nestingAll, is_field.nesting, is_direction.nestingAll]

theorem IsClause.nestingAll {word : Kind} {IsBody : Tree → Prop} {trees : List Tree}
    (is_clause : IsClause word IsBody trees)
    (body_nesting : ∀ tree, IsBody tree → tree.nesting = 0) : Tree.nestingAll trees = 0 := by
  cases is_clause with
  | absent => rfl
  | present token body token_kind is_body => simp [body_nesting body is_body]

theorem IsModeClause.nestingAll {kind : Kind} {trees : List Tree}
    (is_clause : IsModeClause kind trees) : Tree.nestingAll trees = 0 := by
  cases is_clause with
  | absent => rfl
  | present kind word opened inside closed word_kind opened_kind is_mode =>
      cases is_mode <;> rfl

theorem IsLinkClauses.nestingAll {kind : Kind} {trees : List Tree}
    (is_clauses : IsLinkClauses kind trees) : Tree.nestingAll trees = 0 := by
  cases is_clauses with
  | dateFirst date mode is_date is_mode | modeFirst mode date is_mode is_date =>
      simp [is_date.nestingAll fun _ => IsDate.nesting, is_mode.nestingAll]

/-! ## The depth of a tree that is read -/

theorem eq_of_node_ok {kind : Kind} {children : List Tree} {tree : Tree}
    (node_eq : node kind children = .ok tree) : tree = .node kind children := by
  unfold node Tree.build at node_eq
  cases shape : (Tree.node kind children).checkShape with
  | ok =>
      rw [shape] at node_eq
      exact (Except.ok.inj node_eq).symm
  | error error =>
      rw [shape] at node_eq
      cases node_eq

theorem exists_of_liftM_ok {answer : Except Stop α} {value : α}
    (lift_eq : (liftM answer : Production α) tokens = .ok (value, rest)) : answer = .ok value := by
  cases answer with
  | error stop => cases lift_eq
  | ok given =>
      cases lift_eq
      rfl

/-- Linked items nest as deep as the deepest of them. -/
theorem nesting_of_chain {kind : Kind} (not_condition : kind ≠ .condition ∧ kind ≠ .linkCondition)
    {parts : List (List Tree)} {tree : Tree} (chain_eq : chain kind parts = .ok tree) :
    tree.kind = kind ∧ tree.nesting = Tree.nestingAll parts.flatten := by
  induction parts generalizing tree with
  | nil => cases chain_eq
  | cons children parts ih =>
      cases parts with
      | nil =>
          rw [eq_of_node_ok chain_eq, nesting_of_kind not_condition]
          simp
      | cons item parts =>
          rw [chain_cons_cons] at chain_eq
          cases tail_eq : chain kind (item :: parts) with
          | error stop =>
              rw [tail_eq] at chain_eq
              cases chain_eq
          | ok tail =>
              rw [tail_eq, ok_bind] at chain_eq
              rw [eq_of_node_ok chain_eq, nesting_of_kind not_condition]
              simp [(ih tail_eq).2]

section

variable {form : Dialect} {wide : Nat}

/-- Between parentheses, what has been read within one limit is as deep as its tree. -/
def NestsExactly (ctx : Context) (form : Dialect) (wide : Nat) : Prop :=
  ∀ inner tree rest, nestedExpression ctx form wide inner = .ok (tree, rest) →
    tree.kind = form.expression ∧
      ∀ limit, Limited (nestedExpression ctx form limit) inner ↔ limit < tree.nesting + 1

theorem limited_condition_of_ok (closed : ctx.Closed) (is_form : IsForm form)
    (nests : NestsExactly ctx form wide) {tree : Tree}
    (tree_eq : condition ctx form (nestedExpression ctx form wide) tokens = .ok (tree, rest))
    (limit : Nat) :
    Limited (condition ctx form (nestedExpression ctx form limit)) tokens ↔ limit < tree.nesting := by
  rw [limited_condition closed is_form]
  by_cases at_paren : nextKind tokens = .leftParen
  · obtain ⟨opened, inner, rfl, -⟩ := exists_cons_of_kind at_paren (by decide)
    rw [condition, bind_of_ok (eat_cons at_paren inner)] at tree_eq
    obtain ⟨nested, _, nested_eq, tree_eq⟩ := exists_of_bind_ok tree_eq
    obtain ⟨closed, _, -, tree_eq⟩ := exists_of_bind_ok tree_eq
    obtain ⟨nested_kind, nested_iff⟩ := nests inner nested _ nested_eq
    have tree_node := eq_of_node_ok (exists_of_liftM_ok tree_eq)
    rw [tree_node, nesting_nested is_form nested_kind opened closed, ← nested_iff limit]
    constructor
    · rintro ⟨_, _, ⟨⟩, -, limited⟩
      exact limited
    · exact fun limited => ⟨opened, inner, rfl, at_paren, limited⟩
  · rw [condition, bind_of_ok (eat_of_ne at_paren)] at tree_eq
    obtain ⟨taken, behind_eq, is_condition, tokens_eq⟩ :=
      (reads_leafCondition closed is_form).of_ok (Nat.lt_succ_self _) tree_eq
    have tree_nesting : tree.nesting = 0 := by
      cases is_condition with
      | nested opened nested closed opened_kind =>
          rw [List.nil_append] at tokens_eq
          rw [behind_eq, ← tokens_eq] at at_paren
          exact absurd opened_kind at_paren
      | leaf side field comparison is_side is_field is_comparison =>
          exact nesting_leafCondition is_form is_side is_field is_comparison
    rw [tree_nesting]
    refine iff_of_false ?_ (Nat.not_lt_zero limit)
    rintro ⟨opened, inner, rfl, opened_kind, -⟩
    exact at_paren opened_kind

theorem limited_modified_of_ok (closed : ctx.Closed) (is_form : IsForm form)
    (nests : NestsExactly ctx form wide) {item : List Tree}
    (item_eq : modified ctx form (nestedExpression ctx form wide) tokens = .ok (item, rest))
    (limit : Nat) :
    Limited (modified ctx form (nestedExpression ctx form limit)) tokens ↔
      limit < Tree.nestingAll item := by
  obtain ⟨modifier, behind, modifier_eq, item_eq⟩ := exists_of_bind_ok item_eq
  obtain ⟨tree, after, tree_eq, ⟨⟩⟩ := exists_of_bind_ok item_eq
  have reads_modifier : Reads ctx (tokens.length + 1) [] (optional .everNot) _ _ :=
    reads_optional (by decide)
  obtain ⟨taken, -, is_modifier, -⟩ := reads_modifier.of_ok (Nat.lt_succ_self _) modifier_eq
  have limited_iff : Limited (modified ctx form (nestedExpression ctx form limit)) tokens ↔
      Limited (condition ctx form (nestedExpression ctx form limit)) behind := by
    rw [Limited, modified, bind_of_ok modifier_eq]
    exact limited_bind_iff_left fun tree rest => not_limited_of_ok rfl
  rw [limited_iff, limited_condition_of_ok closed is_form nests tree_eq limit,
    Tree.nestingAll_append, is_modifier.nestingAll]
  simp

theorem limited_steps_of_ok (closed : ctx.Closed) (is_form : IsForm form)
    (nests : NestsExactly ctx form wide) (limit steps : Nat) {parts : List (List Tree)}
    (steps_eq : elementsWithin (modified ctx form (nestedExpression ctx form wide)) .andOr steps
      tokens = .ok (parts, rest)) :
    Limited (elementsWithin (modified ctx form (nestedExpression ctx form limit)) .andOr steps)
        tokens ↔ limit < Tree.nestingAll parts.flatten := by
  induction steps generalizing tokens parts with
  | zero => cases steps_eq
  | succ steps ih =>
      cases item_eq : modified ctx form (nestedExpression ctx form wide) tokens with
      | error stop =>
          rw [elementsWithin_of_error item_eq] at steps_eq
          cases steps_eq
      | ok answer =>
          obtain ⟨item, behind⟩ := answer
          have item_iff := limited_modified_of_ok closed is_form nests item_eq limit
          have limit_eq : ¬ Limited (modified ctx form (nestedExpression ctx form limit)) tokens →
              modified ctx form (nestedExpression ctx form limit) tokens = .ok (item, behind) :=
            fun free => (modified_eq_of_free free (not_limited_of_ok item_eq)).trans item_eq
          by_cases mem : nextKind behind ∈ KindSet.andOr
          · obtain ⟨connective, behind, rfl, -⟩ := exists_cons_of_nextKind fun at_end =>
              absurd (at_end ▸ mem) (by decide)
            rw [elementsWithin_of_more item_eq mem] at steps_eq
            cases behind_eq : elementsWithin (modified ctx form (nestedExpression ctx form wide))
                .andOr steps behind with
            | error stop =>
                rw [behind_eq] at steps_eq
                cases steps_eq
            | ok answer =>
                rw [behind_eq] at steps_eq
                cases steps_eq
                have behind_iff := ih behind_eq
                simp only [List.flatten_cons, Tree.nestingAll_append, Tree.nestingAll_cons,
                  Tree.nesting_leaf, Tree.nestingAll_nil]
                by_cases limited : Limited
                    (modified ctx form (nestedExpression ctx form limit)) tokens
                · have shallow := item_iff.1 limited
                  exact iff_of_true (elementsWithin_of_error limited steps) (by omega)
                · rw [limited_elementsWithin_of_more steps (limit_eq limited) mem, behind_iff]
                  have deep := mt item_iff.2 limited
                  omega
          · rw [elementsWithin_of_last item_eq mem] at steps_eq
            cases steps_eq
            rw [List.flatten_singleton, ← item_iff]
            by_cases limited : Limited (modified ctx form (nestedExpression ctx form limit)) tokens
            · exact iff_of_true (elementsWithin_of_error limited steps) limited
            · refine iff_of_false ?_ limited
              exact not_limited_of_ok (elementsWithin_of_last (limit_eq limited) mem steps)

theorem limited_expression_of_ok (closed : ctx.Closed) (is_form : IsForm form) {tree : Tree}
    (expression_eq : expression ctx form wide tokens = .ok (tree, rest)) :
    tree.kind = form.expression ∧
      ∀ limit, Limited (expression ctx form limit) tokens ↔ limit < tree.nesting := by
  have not_condition : form.expression ≠ .condition ∧ form.expression ≠ .linkCondition := by
    obtain rfl | rfl := is_form <;> exact ⟨nofun, nofun⟩
  -- The chain is as deep as its parts, and they are as deep as what stands in their parentheses.
  have of_nests : ∀ wide tokens tree rest, NestsExactly ctx form wide →
      expression ctx form wide tokens = .ok (tree, rest) → tree.kind = form.expression ∧
        ∀ limit, Limited (expression ctx form limit) tokens ↔ limit < tree.nesting := by
    intro wide tokens tree rest nests tree_eq
    rw [Grammar.expression_eq, conditions_eq] at tree_eq
    obtain ⟨parts, behind, parts_eq, tree_eq⟩ := exists_of_bind_ok tree_eq
    obtain ⟨tree_kind, tree_nesting⟩ :=
      nesting_of_chain not_condition (exists_of_liftM_ok tree_eq)
    refine ⟨tree_kind, fun limit => ?_⟩
    rw [Grammar.expression_eq, conditions_eq, limited_linked, tree_nesting]
    exact limited_steps_of_ok closed is_form nests limit _ parts_eq
  refine of_nests wide tokens tree rest ?_ expression_eq
  clear expression_eq
  induction wide with
  | zero => exact fun inner tree rest nested_eq => nomatch nested_eq
  | succ wide ih =>
      intro inner nested rest nested_eq
      obtain ⟨nested_kind, nested_iff⟩ := of_nests wide inner nested rest ih nested_eq
      refine ⟨nested_kind, fun limit => ?_⟩
      cases limit with
      | zero => exact iff_of_true rfl (Nat.zero_lt_succ _)
      | succ limit => exact (nested_iff limit).trans Nat.succ_lt_succ_iff.symm

theorem limited_filterClauses_of_ok (closed : ctx.Closed) (is_form : IsForm form)
    {filter : List Tree} (filter_eq : filterClauses ctx form wide tokens = .ok (filter, rest))
    (limit : Nat) :
    Limited (filterClauses ctx form limit) tokens ↔ limit < Tree.nestingAll filter := by
  obtain ⟨conditions, behind, conditions_eq, filter_eq⟩ := exists_of_bind_ok filter_eq
  obtain ⟨order, rest, order_eq, ⟨⟩⟩ := exists_of_bind_ok filter_eq
  obtain ⟨taken, -, is_order, -⟩ := (reads_clause (by decide) (reads_orderList closed is_form)).of_ok
    (Nat.lt_succ_self _) order_eq
  rw [limited_filterClauses closed is_form, Tree.nestingAll_append,
    is_order.nestingAll fun _ => IsOrderList.nesting is_form]
  by_cases at_where : nextKind tokens = .whereKw
  · obtain ⟨word, behind, rfl, -⟩ := exists_cons_of_kind at_where nofun
    rw [clause, bind_of_ok (eat_cons at_where behind)] at conditions_eq
    obtain ⟨tree, _, tree_eq, ⟨⟩⟩ := exists_of_bind_ok conditions_eq
    have tree_iff := (limited_expression_of_ok closed is_form tree_eq).2 limit
    simp only [Tree.nestingAll_cons, Tree.nesting_leaf, Tree.nestingAll_nil]
    constructor
    · rintro ⟨_, _, ⟨⟩, -, limited⟩
      have deeper := tree_iff.1 limited
      omega
    · intro deeper
      exact ⟨word, behind, rfl, at_where, tree_iff.2 (by omega)⟩
  · rw [clause, bind_of_ok (eat_of_ne at_where)] at conditions_eq
    cases conditions_eq
    refine iff_of_false ?_ (Nat.not_lt_zero limit)
    rintro ⟨word, behind, rfl, word_kind, -⟩
    exact at_where word_kind

theorem limited_flatTail_of_ok (closed : ctx.Closed) {head : List Tree}
    (head_nesting : Tree.nestingAll head = 0) {root : Tree}
    (root_eq : flatTail ctx wide head tokens = .ok (root, rest)) (limit : Nat) :
    Limited (flatTail ctx limit head) tokens ↔ limit < root.nesting := by
  obtain ⟨filter, behind, filter_eq, root_eq⟩ := exists_of_bind_ok root_eq
  obtain ⟨asof, behind, asof_eq, root_eq⟩ := exists_of_bind_ok root_eq
  obtain ⟨taken, -, is_date, -⟩ := (reads_clause (by decide) (reads_date closed)).of_ok
    (Nat.lt_succ_self _) asof_eq
  obtain ⟨start, _, -, root_eq⟩ := exists_of_bind_ok root_eq
  rw [limited_flatTail closed, limited_filterClauses_of_ok closed (.inl rfl) filter_eq]
  split at root_eq
  · cases root_eq
  · have not_condition : Kind.flatSelect ≠ .condition ∧ Kind.flatSelect ≠ .linkCondition :=
      ⟨nofun, nofun⟩
    rw [eq_of_node_ok (exists_of_liftM_ok root_eq), nesting_of_kind not_condition]
    simp [head_nesting, is_date.nestingAll fun _ => IsDate.nesting]

theorem limited_linkTail_of_ok (closed : ctx.Closed) {head : List Tree}
    (head_nesting : Tree.nestingAll head = 0) {root : Tree}
    (root_eq : linkTail ctx wide head tokens = .ok (root, rest)) (limit : Nat) :
    Limited (linkTail ctx limit head) tokens ↔ limit < root.nesting := by
  obtain ⟨filter, behind, filter_eq, root_eq⟩ := exists_of_bind_ok root_eq
  obtain ⟨⟨kind, clauses⟩, behind, clauses_eq, root_eq⟩ := exists_of_bind_ok root_eq
  obtain ⟨taken, -, is_clauses, -⟩ := (reads_linkClauses closed).of_ok (Nat.lt_succ_self _) clauses_eq
  have not_condition : kind ≠ .condition ∧ kind ≠ .linkCondition := by
    obtain kind_eq | kind_eq := is_clauses.kind_eq <;>
      · dsimp only at kind_eq
        rw [kind_eq]
        exact ⟨nofun, nofun⟩
  rw [limited_linkTail closed, limited_filterClauses_of_ok closed (.inr rfl) filter_eq,
    eq_of_node_ok (exists_of_liftM_ok root_eq), nesting_of_kind not_condition]
  simp [head_nesting, is_clauses.nestingAll]

/-- The limits that a query runs into are those below the nesting of its tree. -/
theorem limited_query_of_ok (closed : ctx.Closed) {root : Tree}
    (root_eq : query ctx wide tokens = .ok (root, rest)) (limit : Nat) :
    Limited (query ctx limit) tokens ↔ limit < root.nesting := by
  obtain ⟨select, behind_select, select_eq, root_eq⟩ := exists_of_bind_ok root_eq
  obtain ⟨fields, behind_fields, fields_eq, root_eq⟩ := exists_of_bind_ok root_eq
  obtain ⟨origin, source, origin_eq, root_eq⟩ := exists_of_bind_ok root_eq
  obtain ⟨taken, -, is_fields, -⟩ := (reads_fieldList closed).of_ok (Nat.lt_succ_self _) fields_eq
  have head_nesting : ∀ place, Tree.nestingAll
      ([.leaf select, fields, .leaf origin] ++ [.leaf place]) = 0 := by
    intro place
    simp [IsFieldList.nesting is_fields]
  rw [Limited, query, bind_of_ok select_eq, bind_of_ok fields_eq, bind_of_ok origin_eq]
  by_cases flat_kind : nextKind source = .workItemsKw
  · obtain ⟨place, rest, rfl, -⟩ := exists_cons_of_kind flat_kind (by decide)
    rw [bind_of_ok (eat_cons flat_kind rest)] at root_eq ⊢
    exact limited_flatTail_of_ok closed (head_nesting place) root_eq limit
  · rw [bind_of_ok (eat_of_ne flat_kind)] at root_eq ⊢
    by_cases link_kind : nextKind source = .workItemLinksKw
    · obtain ⟨place, rest, rfl, -⟩ := exists_cons_of_kind link_kind (by decide)
      dsimp only at root_eq ⊢
      rw [bind_of_ok (eat_cons link_kind rest)] at root_eq ⊢
      exact limited_linkTail_of_ok closed (head_nesting place) root_eq limit
    · dsimp only at root_eq
      rw [bind_of_ok (eat_of_ne link_kind)] at root_eq
      cases root_eq

/-- What is read within a limit is a derivation tree that keeps within it. -/
theorem derivation_of_query_ok (closed : ctx.Closed) {limit : Nat} {root : Tree}
    (root_eq : query ctx limit tokens = .ok (root, rest)) :
    IsQuery root ∧ tokens = root.tokens ++ rest ∧ root.nesting ≤ limit := by
  have free := not_limited_of_ok root_eq
  have wide_eq : query ctx (max limit tokens.length) tokens = .ok (root, rest) :=
    (Approximates.query (Nat.le_max_left ..) tokens free).trans root_eq
  obtain ⟨taken, tokens_eq, is_query, rfl⟩ := (reads_query closed _).of_ok
    (Nat.lt_succ_of_le (Nat.le_max_right ..)) wide_eq
  refine ⟨is_query, tokens_eq, Nat.le_of_not_lt fun deeper => ?_⟩
  exact free ((limited_query_of_ok closed root_eq limit).2 deeper)

end

/-- A reading with a tree has read a query, and something may be behind it. -/
theorem exists_query_of_parse {limit : Option Nat} {init : List Token} {final : Token}
    {reading : Reading} {root : Tree} (final_kind : final.kind = .endMark)
    (parse_eq : parse limit (init ++ [final]) = .ok reading) (root_eq : reading.root? = some root) :
    ∃ behind, init = root.tokens ++ behind ∧
      query ⟨final⟩ (limit.getD (init ++ [final]).length) (init ++ [final]) =
        .ok (root, behind ++ [final]) ∧
      reading.diagnostics = (init ++ [final]).filterMap lexicalReport? ++
        (trailingReport? ⟨final⟩ (behind ++ [final])).toList := by
  rw [parse_of_endMark final_kind] at parse_eq
  cases query_eq : query ⟨final⟩ (limit.getD (init ++ [final]).length) (init ++ [final]) with
  | error stop =>
      rw [query_eq] at parse_eq
      cases stop <;> cases parse_eq <;> cases root_eq
  | ok answer =>
      rw [query_eq] at parse_eq
      cases parse_eq
      cases root_eq
      obtain ⟨is_query, tokens_eq, -⟩ :=
        derivation_of_query_ok (show Context.Closed ⟨final⟩ from final_kind) query_eq
      obtain ⟨behind, rest_eq, init_eq⟩ :=
        exists_rest_of_no_endMark final_kind tokens_eq is_query.kind_ne_endMark
      refine ⟨behind, init_eq, ?_, ?_⟩
      · rw [← rest_eq]
      · rw [← rest_eq]

/-! ## Limits and answers -/

/-- There is a depth that is gone into, and the limits below it are those that are run into. -/
theorem exists_isDeepest (closed : ctx.Closed) (tokens : List Token) :
    ∃ depth, IsDeepest ctx tokens depth ∧
      ∀ limit, Limited (query ctx limit) tokens ↔ limit < depth := by
  have exists_least : ∀ limit, ¬ Limited (query ctx limit) tokens →
      ∃ depth, ∀ limit, Limited (query ctx limit) tokens ↔ limit < depth := by
    intro limit free
    induction limit with
    | zero =>
        refine ⟨0, fun limit => iff_of_false ?_ (Nat.not_lt_zero limit)⟩
        exact (Approximates.query (Nat.zero_le limit)).free free
    | succ limit ih =>
        by_cases limited : Limited (query ctx limit) tokens
        · refine ⟨limit + 1, fun other => ⟨fun other_limited => ?_, fun less => ?_⟩⟩
          · exact Nat.lt_of_not_le fun le => (Approximates.query le).free free other_limited
          · refine Classical.byContradiction fun other_free => ?_
            exact (Approximates.query (Nat.le_of_lt_succ less)).free other_free limited
        · exact ih limited
  obtain ⟨depth, limited_iff⟩ := exists_least tokens.length
    ((reads_query closed tokens.length).not_limited (Nat.lt_succ_self _))
  have le_depth : ∀ other, QueryEnters ctx tokens other → other ≤ depth := by
    intro other enters
    refine Nat.le_of_not_lt fun deeper => ?_
    have limited := (limited_query_iff closed).2 ⟨other, deeper, enters⟩
    exact Nat.lt_irrefl depth ((limited_iff depth).1 limited)
  refine ⟨depth, ⟨?_, le_depth⟩, limited_iff⟩
  cases depth with
  | zero => exact .query
  | succ limit =>
      obtain ⟨entered, deeper, enters⟩ :=
        (limited_query_iff closed).1 ((limited_iff limit).2 (Nat.lt_succ_self limit))
      have entered_eq : entered = limit + 1 := Nat.le_antisymm (le_depth entered enters) deeper
      rwa [← entered_eq]

/-- A text is read the same with every limit that reaches the depth of its parentheses as without
one, and with any other limit it has no answer.  The depth of a query is the nesting of its tree. -/
theorem parse_tokenize_limit (source : String) :
    ∃ final depth reading, (tokenize source).getLast? = some final ∧
      IsDeepest ⟨final⟩ (tokenize source) depth ∧ parse none (tokenize source) = .ok reading ∧
      (∀ limit, depth ≤ limit → parse (some limit) (tokenize source) = .ok reading) ∧
      (∀ limit, limit < depth →
        parse (some limit) (tokenize source) = .error .recursionLimit) ∧
      ∀ root, reading.root? = some root → root.nesting = depth := by
  obtain ⟨init, final, tokens_eq, is_list, -⟩ := exists_tokenize_eq source
  obtain ⟨reading, verdict, parse_eq, -⟩ := parse_of_isTokenList is_list
  have closed : Context.Closed ⟨final⟩ := is_list.final_kind
  obtain ⟨depth, is_deepest, limited_iff⟩ := exists_isDeepest closed (init ++ [final])
  have free : ¬ Limited (query ⟨final⟩ (init ++ [final]).length) (init ++ [final]) :=
    (reads_query closed _).not_limited (Nat.lt_succ_self _)
  rw [tokens_eq]
  refine ⟨final, depth, reading, by simp, is_deepest, parse_eq, ?_, ?_, ?_⟩
  · intro limit le
    have same : query ⟨final⟩ limit (init ++ [final]) =
        query ⟨final⟩ (init ++ [final]).length (init ++ [final]) :=
      Approximates.eq_of_free (fun limit limit' le => .query le)
        (fun limited => Nat.not_lt.2 le ((limited_iff limit).1 limited)) free
    rw [parse_of_endMark closed, Option.getD_some, same, ← parse_eq, parse_of_endMark closed]
    rfl
  · intro limit less
    have limited : query ⟨final⟩ limit (init ++ [final]) = .error (.fault .recursionLimit) :=
      (limited_iff limit).2 less
    rw [parse_of_endMark closed, Option.getD_some, limited]
    rfl
  · intro root root_eq
    rw [parse_of_endMark closed, Option.getD_none] at parse_eq
    cases query_eq : query ⟨final⟩ (init ++ [final]).length (init ++ [final]) with
    | error stop =>
        rw [query_eq] at parse_eq
        cases stop <;> cases parse_eq <;> cases root_eq
    | ok answer =>
        rw [query_eq] at parse_eq
        cases parse_eq
        cases root_eq
        have root_iff := limited_query_of_ok closed query_eq
        have same : ∀ limit, limit < depth ↔ limit < answer.1.nesting := fun limit =>
          (limited_iff limit).symm.trans (root_iff limit)
        have le := (same depth).2
        have ge := (same answer.1.nesting).1
        omega

end Grammar
end WorkItemQuery
