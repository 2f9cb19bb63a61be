import WorkItemQuery.Proofs.Grammar.Completeness

/-!
# Running into the limit

A limit on how deep parentheses nest either stops a production or has no part in its answer.  So a
family of productions, one for each limit, has a depth wherever it answers: the limits below it are
run into, and all others give the one answer.  The depth of a chain of conditions is the nesting of
its tree.
-/

namespace WorkItemQuery
namespace Grammar

variable {α β : Type} {ctx : Context} {tokens rest : List Token}

/-- The production stops because parentheses nest deeper than allowed. -/
def Limited (production : Production α) (tokens : List Token) : Prop :=
  production tokens = .error (.fault .recursionLimit)

/-! ## What runs into a limit -/

theorem limited_bind {first : Production α} {next : α → Production β} :
    Limited (first >>= next) tokens ↔
      Limited first tokens ∨
        ∃ value rest, first tokens = .ok (value, rest) ∧ Limited (next value) rest := by
  unfold Limited
  cases first_eq : first tokens with
  | error stop =>
      rw [bind_of_error first_eq]
      simp
  | ok answer =>
      obtain ⟨value, rest⟩ := answer
      rw [bind_of_ok first_eq]
      constructor
      · exact fun limited => .inr ⟨value, rest, rfl, limited⟩
      · rintro (⟨⟨⟩⟩ | ⟨value, rest, ⟨⟩, limited⟩)
        exact limited

theorem limited_bind_iff_left {first : Production α} {next : α → Production β}
    (free : ∀ value rest, ¬ Limited (next value) rest) :
    Limited (first >>= next) tokens ↔ Limited first tokens := by
  rw [limited_bind, or_iff_left]
  rintro ⟨value, rest, -, limited⟩
  exact free value rest limited

theorem limited_bind_iff_right {first : Production α} {next : α → Production β}
    (free : ¬ Limited first tokens) :
    Limited (first >>= next) tokens ↔
      ∃ value rest, first tokens = .ok (value, rest) ∧ Limited (next value) rest := by
  rw [limited_bind, or_iff_right free]

theorem not_limited_of_ok {production : Production α} {answer : α × List Token}
    (answer_eq : production tokens = .ok answer) : ¬ Limited production tokens := by
  intro limited
  rw [Limited, answer_eq] at limited
  cases limited

/-- No production runs into a limit where it keeps its contract. -/
theorem Reads.not_limited {bound : Nat} {before : List Token} {production : Production α}
    {deeper : Nat → Production α} {word : α → List Token → Prop}
    (reads : Reads ctx bound before production deeper word) (short : tokens.length < bound) :
    ¬ Limited production tokens := by
  intro limited
  have outcome := reads tokens short
  rw [limited] at outcome
  cases outcome with
  | stopped stop taken rest tokens_eq stops => cases stops

theorem not_limited_halt (closed : ctx.Closed) (problem : Problem) :
    ¬ Limited (halt ctx problem : Production α) tokens := by
  intro limited
  have stop_eq : ctx.stop tokens problem = .fault .recursionLimit := Except.error.inj limited
  have stops := closed.stops_stopAt [] tokens problem problem.plainMessage
    ("found " ++ (ctx.current tokens).shown)
  rw [Context.stop] at stop_eq
  rw [stop_eq] at stops
  cases stops

theorem not_limited_node (kind : Kind) (children : List Tree) :
    ¬ Limited (liftM (node kind children)) tokens := by
  intro limited
  rw [Limited, node] at limited
  cases build_eq : Tree.build kind children with
  | ok tree =>
      rw [build_eq] at limited
      cases limited
  | error error =>
      rw [build_eq] at limited
      cases limited

theorem not_limited_chain {kind : Kind} (parts : List (List Tree)) :
    ¬ Limited (liftM (chain kind parts)) tokens := by
  induction parts with
  | nil => nofun
  | cons children parts ih =>
      cases parts with
      | nil => exact not_limited_node kind children
      | cons item parts =>
          rw [liftM_chain_cons_cons, limited_bind_iff_left fun tail rest => not_limited_node kind _]
          exact ih

section

variable {item : Production (List Tree)} {separators : KindSet}

theorem limited_linked {kind : Kind} :
    Limited (linked kind separators item) tokens ↔ Limited (elements item separators) tokens := by
  rw [linked, limited_bind_iff_left]
  exact fun parts rest => not_limited_chain parts

theorem limited_elementsWithin_of_more (steps : Nat) {children : List Tree} {separator : Token}
    (item_eq : item tokens = .ok (children, separator :: rest))
    (mem : separator.kind ∈ separators) :
    Limited (elementsWithin item separators (steps + 1)) tokens ↔
      Limited (elementsWithin item separators steps) rest := by
  rw [Limited, elementsWithin_of_more item_eq mem, Limited]
  cases elementsWithin item separators steps rest with
  | ok answer => exact ⟨nofun, nofun⟩
  | error stop => rfl

/-- A list runs into a limit in its first item, or in the list behind its first separator. -/
theorem limited_linked_of_more {kind : Kind} (not_end : .endMark ∉ separators)
    {children : List Tree} {separator : Token}
    (item_eq : item tokens = .ok (children, separator :: rest))
    (mem : separator.kind ∈ separators) (shorter : rest.length < tokens.length)
    (limited : Limited (linked kind separators item) rest) :
    Limited (linked kind separators item) tokens := by
  rw [limited_linked] at limited ⊢
  refine (limited_elementsWithin_of_more tokens.length item_eq mem).2 ?_
  exact elements_of_elementsWithin not_end shorter limited nofun

end

section

variable {form : Dialect} {nested : Production Tree}

theorem limited_clause {word : Kind} (not_end : word ≠ .endMark) {body : Production Tree} :
    Limited (clause word body) tokens ↔
      ∃ found rest, tokens = found :: rest ∧ found.kind = word ∧ Limited body rest := by
  by_cases at_word : nextKind tokens = word
  · obtain ⟨found, rest, rfl, -⟩ := exists_cons_of_nextKind fun at_end =>
      not_end (at_word.symm.trans at_end)
    have body_first : Limited (clause word body) (found :: rest) ↔ Limited body rest := by
      rw [Limited, clause, bind_of_ok (eat_cons at_word rest)]
      exact limited_bind_iff_left fun tree rest => not_limited_of_ok rfl
    rw [body_first]
    constructor
    · exact fun limited => ⟨found, rest, rfl, at_word, limited⟩
    · rintro ⟨_, _, ⟨⟩, -, limited⟩
      exact limited
  · constructor
    · intro limited
      rw [Limited, clause, bind_of_ok (eat_of_ne at_word)] at limited
      cases limited
    · rintro ⟨found, rest, rfl, found_kind, -⟩
      exact absurd found_kind at_word

/-- A condition runs into a limit between its parentheses only. -/
theorem limited_condition (closed : ctx.Closed) (is_form : IsForm form) :
    Limited (condition ctx form nested) tokens ↔
      ∃ opened inner, tokens = opened :: inner ∧ opened.kind = .leftParen ∧
        Limited nested inner := by
  by_cases at_paren : nextKind tokens = .leftParen
  · obtain ⟨opened, inner, rfl, -⟩ := exists_cons_of_kind at_paren nofun
    have opened_kind : opened.kind = .leftParen := at_paren
    have not_behind : ∀ (tree : Tree) (rest : List Token), ¬ Limited (do
        let closed ← closeParen ctx opened.span
        node form.condition [.leaf opened, tree, .leaf closed]) rest := by
      intro tree rest limited
      rw [limited_bind] at limited
      obtain limited | ⟨closed, rest', -, limited⟩ := limited
      · have innermost := isInnermost_of_balanced opened_kind .nil []
        exact (reads_closeParen closed innermost).not_limited (Nat.lt_succ_self _) limited
      · exact not_limited_node _ _ limited
    have condition_eq : condition ctx form nested (opened :: inner) = (do
        let tree ← nested
        let closed ← closeParen ctx opened.span
        node form.condition [.leaf opened, tree, .leaf closed]) inner := by
      rw [condition, bind_of_ok (eat_cons opened_kind inner)]
    constructor
    · intro limited
      rw [Limited, condition_eq] at limited
      obtain limited | ⟨tree, rest, -, limited⟩ := limited_bind.1 limited
      · exact ⟨opened, inner, rfl, opened_kind, limited⟩
      · exact absurd limited (not_behind tree rest)
    · rintro ⟨_, _, ⟨⟩, -, limited⟩
      rw [Limited, condition_eq]
      exact limited_bind.2 (.inl limited)
  · constructor
    · intro limited
      rw [Limited, condition, bind_of_ok (eat_of_ne at_paren)] at limited
      exact absurd limited
        ((reads_leafCondition closed is_form).not_limited (Nat.lt_succ_self _))
    · rintro ⟨opened, inner, rfl, opened_kind, -⟩
      exact absurd opened_kind at_paren

theorem limited_modified (closed : ctx.Closed) (is_form : IsForm form) :
    Limited (modified ctx form nested) tokens ↔
      ∃ modifier opened inner, optional .everNot tokens = .ok (modifier, opened :: inner) ∧
        opened.kind = .leftParen ∧ Limited nested inner := by
  rw [modified, limited_bind]
  constructor
  · rintro (limited | ⟨modifier, rest, modifier_eq, limited⟩)
    · have reads_modifier : Reads ctx (tokens.length + 1) [] (optional .everNot) _ _ :=
        reads_optional (by decide)
      exact absurd limited (reads_modifier.not_limited (Nat.lt_succ_self _))
    · obtain limited | ⟨tree, rest', -, limited⟩ := limited_bind.1 limited
      · obtain ⟨opened, inner, rfl, opened_kind, limited⟩ :=
          (limited_condition closed is_form).1 limited
        exact ⟨modifier, opened, inner, modifier_eq, opened_kind, limited⟩
      · cases limited
  · rintro ⟨modifier, opened, inner, modifier_eq, opened_kind, limited⟩
    refine .inr ⟨modifier, _, modifier_eq, limited_bind.2 (.inl ?_)⟩
    exact (limited_condition closed is_form).2 ⟨opened, inner, rfl, opened_kind, limited⟩

end

/-! ## Wider limits -/

/-- The two productions answer alike wherever the first does not run into its limit. -/
def Approximates (production wider : Production α) : Prop :=
  ∀ tokens, ¬ Limited production tokens → wider tokens = production tokens

namespace Approximates

theorem refl (production : Production α) : Approximates production production :=
  fun _ _ => rfl

theorem bind {first first' : Production α} {next next' : α → Production β}
    (approximates_first : Approximates first first')
    (approximates_next : ∀ value, Approximates (next value) (next' value)) :
    Approximates (first >>= next) (first' >>= next') := by
  intro tokens free
  rw [limited_bind, not_or] at free
  have first_eq := approximates_first tokens free.1
  cases answer_eq : first tokens with
  | error stop => rw [bind_of_error answer_eq, bind_of_error (first_eq.trans answer_eq)]
  | ok answer =>
      obtain ⟨value, rest⟩ := answer
      rw [bind_of_ok answer_eq, bind_of_ok (first_eq.trans answer_eq)]
      exact approximates_next value rest fun limited => free.2 ⟨value, rest, answer_eq, limited⟩

theorem bind_right {first : Production α} {next next' : α → Production β}
    (approximates_next : ∀ value, Approximates (next value) (next' value)) :
    Approximates (first >>= next) (first >>= next') :=
  (refl first).bind approximates_next

theorem bind_left {first first' : Production α} {next : α → Production β}
    (approximates_first : Approximates first first') :
    Approximates (first >>= next) (first' >>= next) :=
  approximates_first.bind fun value => refl (next value)

theorem linked {item item' : Production (List Tree)}
    (approximates_item : Approximates item item') (kind : Kind) (separators : KindSet) :
    Approximates (linked kind separators item) (Grammar.linked kind separators item') := by
  have approximates_steps : ∀ steps, Approximates (elementsWithin item separators steps)
      (elementsWithin item' separators steps) := by
    intro steps
    induction steps with
    | zero => exact refl _
    | succ steps ih =>
        refine approximates_item.bind fun children => bind_right fun separator => ?_
        cases separator with
        | none => exact refl _
        | some separator => exact ih.bind_left
  exact bind_left fun tokens free => approximates_steps _ tokens free

theorem condition {form : Dialect} {nested nested' : Production Tree}
    (approximates_nested : Approximates nested nested') :
    Approximates (condition ctx form nested) (Grammar.condition ctx form nested') := by
  refine bind_right fun opened => ?_
  cases opened with
  | none => exact refl _
  | some opened => exact approximates_nested.bind_left

theorem modified {form : Dialect} {nested nested' : Production Tree}
    (approximates_nested : Approximates nested nested') :
    Approximates (modified ctx form nested) (Grammar.modified ctx form nested') :=
  bind_right fun _ => approximates_nested.condition.bind_left

theorem nestedExpression {form : Dialect} {limit limit' : Nat} (le : limit ≤ limit') :
    Approximates (nestedExpression ctx form limit) (Grammar.nestedExpression ctx form limit') := by
  induction limit generalizing limit' with
  | zero => exact fun tokens free => absurd rfl free
  | succ limit ih =>
      obtain ⟨limit', rfl⟩ := Nat.exists_eq_add_of_le' (Nat.zero_lt_of_lt le)
      have approximates_nested := ih (Nat.le_of_succ_le_succ le)
      rw [Grammar.nestedExpression, Grammar.nestedExpression, expression_eq, expression_eq]
      exact approximates_nested.modified.linked _ _

theorem expression {form : Dialect} {limit limit' : Nat} (le : limit ≤ limit') :
    Approximates (expression ctx form limit) (Grammar.expression ctx form limit') := by
  rw [expression_eq, expression_eq]
  exact (nestedExpression le).modified.linked _ _

theorem clause {word : Kind} {body body' : Production Tree}
    (approximates_body : Approximates body body') :
    Approximates (clause word body) (Grammar.clause word body') := by
  refine bind_right fun found => ?_
  cases found with
  | none => exact refl _
  | some found => exact approximates_body.bind_left

theorem filterClauses {form : Dialect} {limit limit' : Nat} (le : limit ≤ limit') :
    Approximates (filterClauses ctx form limit) (Grammar.filterClauses ctx form limit') :=
  (expression le).clause.bind_left

theorem query {limit limit' : Nat} (le : limit ≤ limit') :
    Approximates (query ctx limit) (Grammar.query ctx limit') := by
  refine bind_right fun select => bind_right fun fields => bind_right fun origin => ?_
  refine bind_right fun flat_source => ?_
  cases flat_source with
  | some source => exact (filterClauses le).bind_left
  | none =>
      refine bind_right fun link_source => ?_
      cases link_source with
      | some source => exact (filterClauses le).bind_left
      | none => exact refl _

theorem free {production wider : Production α} (approximates : Approximates production wider)
    (free : ¬ Limited production tokens) : ¬ Limited wider tokens := by
  rwa [Limited, approximates tokens free]

/-- The limits that are not run into have one answer. -/
theorem eq_of_free {family : Nat → Production α}
    (grows : ∀ limit limit', limit ≤ limit' → Approximates (family limit) (family limit'))
    {limit limit' : Nat} (free : ¬ Limited (family limit) tokens)
    (free' : ¬ Limited (family limit') tokens) : family limit tokens = family limit' tokens := by
  obtain le | le := Nat.le_total limit limit'
  · exact (grows limit limit' le tokens free).symm
  · exact grows limit' limit le tokens free'

end Approximates

end Grammar
end WorkItemQuery
