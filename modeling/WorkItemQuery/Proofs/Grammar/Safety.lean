import WorkItemQuery.Proofs.Grammar.Checked
import WorkItemQuery.Proofs.Grammar.Depth

/-!
# Reading never raises an alarm

Every checked production follows the plain one.  Before it takes a token a production looks at no
more than a few, and what it takes it has looked at.  Nothing is reported before the report that
stops a reading or stands behind a query, so no report is held back.
-/

namespace WorkItemQuery
namespace Grammar

open Checked (Cursor Source Run Break Alarm fullLooks)

variable {source : Source} {floor depth looks : Nat} {known : List Token → Prop}

/-! ## Values -/

theorem follows_field (seals : source.Sealed) :
    Follows source floor depth known (looks + 4) fullLooks (Checked.field source)
      (field source.context) :=
  (follows_expect seals (by decide)).bind fun _ => .node (Nat.le_refl _)

theorem follows_number (seals : source.Sealed) :
    Follows source floor depth known (looks + 5) fullLooks (Checked.number source)
      (number source.context) :=
  (follows_optional seals (by decide)).bind fun _ =>
    (follows_expectToken seals (by decide)).bind fun _ => .node (Nat.le_refl _)

theorem follows_date (seals : source.Sealed) :
    Follows source floor depth known (looks + 4) fullLooks (Checked.date source)
      (date source.context) :=
  (follows_expect seals (by decide)).bind fun _ => .node (Nat.le_refl _)

theorem term_of_number {ctx : Context} {tokens : List Token}
    (begins : nextKind tokens = .digits ∨ nextKind tokens = .minus) :
    term ctx tokens = number ctx tokens := by
  obtain at_digits | at_minus := begins
  · exact bind_of_ok (peek_of_nextKind at_digits)
  · exact bind_of_ok (peek_of_nextKind at_minus)

theorem term_of_name {ctx : Context} {tokens : List Token}
    (begins : nextKind tokens = .identifier) : term ctx tokens = field ctx tokens :=
  bind_of_ok (peek_of_nextKind begins)

theorem term_of_simple {ctx : Context} {token : Token} (mem : token.kind ∈ simpleTerms)
    (rest : List Token) : term ctx (token :: rest) = .ok (.leaf token, rest) := by
  rw [term_eq]
  exact bind_of_ok (eatOneOf_cons mem rest)

theorem follows_term (seals : source.Sealed)
    (begins : ∀ rest, known rest → nextKind rest ∈ KindSet.valueFirst) :
    Follows source floor depth known (looks + 6) fullLooks (Checked.term source)
      (term source.context) := by
  refine .looking 1 (looks_current seals) fun kind => ?_
  split
  · exact .congr (fun rest known => term_of_number (.inl known.2)) (follows_number seals)
  · exact .congr (fun rest known => term_of_number (.inr known.2)) (follows_number seals)
  · exact .congr (fun rest known => term_of_name known.2) (follows_field seals)
  · rename_i not_digits not_minus not_name
    have simple : ∀ kind, kind ∈ KindSet.valueFirst → kind ≠ .digits → kind ≠ .minus →
        kind ≠ .identifier → kind ∈ simpleTerms := by
      decide
    refine .take seals (fun rest known at_end => ?_) (fun token rest known => ?_)
      fun token => .pure (Tree.leaf token) (Nat.le_refl _)
    · exact absurd (at_end ▸ begins rest known.1) (by decide)
    · obtain ⟨holds, rfl⟩ := known
      exact term_of_simple (simple _ (begins _ holds) not_digits not_minus not_name) rest

theorem value_of_notMem {ctx : Context} {tokens : List Token}
    (notMem : nextKind tokens ∉ KindSet.valueFirst) :
    value ctx tokens = halt ctx .expectedValue tokens := by
  have passed := eatOneOf_of_notMem notMem
  have term_eq : term ctx tokens = halt ctx .expectedValue tokens := by
    rw [term, bind_of_ok (peek_of_nextKind rfl)]
    generalize nextKind tokens = kind at notMem
    split
    · exact absurd (by decide) notMem
    · exact absurd (by decide) notMem
    · exact absurd (by decide) notMem
    · exact bind_of_ok passed
  rw [value, bind_apply, term_eq]
  rfl

theorem follows_value (seals : source.Sealed) :
    Follows source floor depth known (looks + 7) (fullLooks - 1) (Checked.value source)
      (value source.context) := by
  refine .looking 1 (looks_current seals) fun kind => ?_
  split
  · rename_i mem
    refine (follows_term seals ?_).bind fun first => ?_
    · rintro rest ⟨-, rfl⟩
      exact mem
    refine .eatOneOf seals (by decide) (fun sign _ => ?_) (.node (Nat.le_refl _))
    exact (follows_number seals).bind fun offset => .node (by decide)
  · rename_i notMem
    refine .congr ?_ (follows_halt seals)
    rintro rest ⟨-, rfl⟩
    exact value_of_notMem notMem

theorem follows_valueList (seals : source.Sealed) :
    Follows source floor depth known (looks + 7) (fullLooks - 2) (Checked.valueList source)
      (valueList source.context) :=
  follows_linked seals (by decide) fun _ _ =>
    (follows_value seals).bind fun item => .pure [item] (Nat.le_refl _)

/-! ## Comparisons -/

theorem follows_operatorProper (seals : source.Sealed) :
    Follows source floor depth known (looks + 4) (fullLooks - 1) (Checked.operatorProper source)
      (operatorProper source.context) := by
  -- A single token of the operators.
  have follows_single : ∀ {known : List Token → Prop} {looks : Nat},
      (∀ rest, known rest → nextKind rest ≠ .containsKw ∧ nextKind rest ≠ .inKw ∧
        nextKind rest ∈ KindSet.comparisonOperators.union (.single .everKw)) →
      Follows source floor depth known (looks + 1) (fullLooks - 1)
        (do let token ← Checked.take source; return .leaf token)
        (operatorProper source.context) := by
    intro known looks is_single
    refine .congr
      (fun rest holds => operatorProper_of_ne (is_single rest holds).1 (is_single rest holds).2.1) ?_
    refine .take seals (fun rest holds at_end => ?_)
      (fun token rest holds => bind_of_ok (eatOneOf_cons (is_single _ holds).2.2 rest))
      fun token => .pure (Tree.leaf token) (by decide)
    exact absurd (at_end ▸ (is_single rest holds).2.2) (by decide)
  refine .looking 1 (looks_current seals) fun kind => ?_
  split
  · refine .take seals (fun rest known => known.2 ▸ nofun)
      (fun token rest known => bind_of_ok (eat_cons known.2 rest)) fun contains => ?_
    exact .eat seals (by decide) (fun words _ => .node (by decide)) (.pure _ (Nat.le_refl _))
  · refine .take seals (fun rest known => known.2 ▸ nofun)
      (fun token rest known => operatorProper_of_in known.2 rest) fun word => ?_
    exact (follows_expectToken seals (by decide)).bind fun group => .node (by decide)
  · refine follows_single fun rest known => ?_
    rw [known.2]
    decide
  · rename_i not_contains not_in not_ever
    split
    · rename_i mem
      refine follows_single fun rest known => ?_
      rw [known.2]
      exact ⟨not_contains, not_in, KindSet.mem_union.2 (.inl mem)⟩
    · rename_i notMem
      refine .congr ?_ (follows_halt seals)
      rintro rest ⟨-, rfl⟩
      rw [operatorProper_of_ne not_contains not_in]
      refine bind_of_ok (eatOneOf_of_notMem fun mem => ?_)
      rcases KindSet.mem_union.1 mem with mem | mem
      · exact notMem mem
      · exact not_ever (KindSet.mem_single.1 mem)

theorem follows_operator (seals : source.Sealed) :
    Follows source floor depth known (looks + 5) (fullLooks - 1) (Checked.operator source)
      (operator source.context) :=
  (follows_optional seals (by decide)).bind fun _ =>
    (follows_operatorProper seals).bind fun _ => .node (Nat.le_refl _)

/-- The list of values behind the words of a membership test. -/
def inParens (ctx : Context) (words : List Tree) : Production (List Tree) := do
  let opened ← expectToken ctx .leftParen
  let values ← valueList ctx
  let closed ← closeParen ctx opened.span
  return words ++ [.leaf opened, values, .leaf closed]

theorem follows_membership (seals : source.Sealed) (words : List Tree) :
    Follows source floor depth known (looks + 4) fullLooks (Checked.membership source words)
      (inParens source.context words) :=
  (follows_expectToken seals (by decide)).bind fun _ => (follows_valueList seals).bind fun _ =>
    (follows_closeParen seals).bind fun _ => .pure _ (Nat.le_refl _)

theorem startsMembership_eq (rest : List Token) :
    startsMembership rest = (isIn rest 0 || (nextKind rest == .notKw && isIn rest 1)) := by
  rw [startsMembership, isIn, isIn, Bool.and_assoc]
  rfl

theorem isIn_cons (token : Token) (rest : List Token) (count : Nat) :
    isIn (token :: rest) (count + 1) = isIn rest count := rfl

theorem nextKind_of_isIn {rest : List Token} (is_in : isIn rest 0 = true) :
    nextKind rest = .inKw := by
  rw [isIn, Bool.and_eq_true] at is_in
  exact eq_of_beq is_in.1

theorem comparison_of_notIn {ctx : Context} {negation : Token} {rest : List Token}
    (negation_kind : negation.kind = .notKw) (is_in : isIn rest 0 = true) :
    comparison ctx (negation :: rest) =
      (expectToken ctx .inKw >>= fun word => inParens ctx [.leaf negation, .leaf word]) rest := by
  have starts : startsMembership (negation :: rest) = true := by
    rw [startsMembership_eq, nextKind_cons, negation_kind, isIn_cons, is_in, Bool.and_true,
      beq_self_eq_true, Bool.or_true]
  rw [comparison_apply, if_pos starts, membership,
    bind_of_ok (optional_cons (KindSet.mem_single.2 negation_kind) rest)]
  rfl

theorem comparison_of_in {ctx : Context} {word : Token} {rest : List Token}
    (is_in : isIn (word :: rest) 0 = true) :
    comparison ctx (word :: rest) = inParens ctx [.leaf word] rest := by
  have word_kind : word.kind = .inKw := nextKind_of_isIn is_in
  have starts : startsMembership (word :: rest) = true := by
    rw [startsMembership_eq, is_in, Bool.true_or]
  have no_not : nextKind (word :: rest) ∉ KindSet.single .notKw := by
    rw [nextKind_cons, word_kind]
    decide
  rw [comparison_apply, if_pos starts, membership, bind_of_ok (optional_of_notMem no_not)]
  exact bind_of_ok (expectToken_cons word_kind rest)

theorem follows_comparison (seals : source.Sealed) :
    Follows source floor depth known (looks + 10) (fullLooks - 1) (Checked.comparison source)
      (comparison source.context) := by
  refine .looking 3 (looks_startsNotIn seals) fun not_in => ?_
  refine .looking 2 (looks_startsIn seals) fun plain_in => ?_
  have begins : ∀ {rest : List Token}, (nextKind rest == .notKw && isIn rest 1) = true →
      nextKind rest = .notKw ∧ isIn rest 1 = true := by
    intro rest starts
    rw [Bool.and_eq_true] at starts
    exact ⟨eq_of_beq starts.1, starts.2⟩
  cases not_in with
  | true =>
      refine .take seals (fun rest known => (begins known.1.2).1 ▸ nofun)
        (fun token rest known => comparison_of_notIn (begins known.1.2).1 (begins known.1.2).2)
        fun negation => ?_
      refine .take seals
        (fun rest known => nextKind_of_isIn (begins known.1.2).2 ▸ nofun)
        (fun word rest known =>
          bind_of_ok (expectToken_cons (nextKind_of_isIn (begins known.1.2).2) rest))
        fun word => ?_
      exact (follows_membership seals _).weaken (by decide)
  | false =>
      cases plain_in with
      | true =>
          refine .take seals (fun rest known => nextKind_of_isIn known.2 ▸ nofun)
            (fun word rest known => comparison_of_in known.2) fun word => ?_
          exact (follows_membership seals _).weaken (by decide)
      | false =>
          refine .congr (fun rest known => ?_)
            ((follows_operator seals).bind fun relation =>
              (follows_value seals).bind fun right => .pure [relation, right] (Nat.le_refl _))
          rw [comparison_apply, startsMembership_eq, known.1.2, known.2]
          rfl

/-! ## Conditions -/

theorem follows_side (seals : source.Sealed) (word : Token) :
    Follows source floor depth known (looks + 4) fullLooks
      (do
        let dot ← Checked.expectToken source .dot
        let kind := if word.kind = .sourceKw then Kind.sourceSide else .targetSide
        Checked.node kind [.leaf word, .leaf dot])
      (side source.context word) :=
  (follows_expectToken seals (by decide)).bind fun _ => .node (Nat.le_refl _)

theorem follows_presentSide (seals : source.Sealed)
    (begins : ∀ rest, known rest → nextKind rest ∈ KindSet.linkSide) :
    Follows source floor depth known (looks + 1) fullLooks
      (do let tree ← Checked.side source; return [tree]) (optionalSide source.context) := by
  rw [Checked.side, bind_assoc]
  refine .take seals (fun rest holds at_end => ?_)
    (fun word rest holds => bind_of_ok (eatOneOf_cons (begins _ holds) rest)) fun word => ?_
  · exact absurd (at_end ▸ begins rest holds) (by decide)
  · exact (follows_side seals word).bind fun tree => .pure [tree] (Nat.le_refl _)

theorem follows_sideOf (seals : source.Sealed) (form : Dialect) :
    Follows source floor depth known (looks + 2) (looks + 1) (Checked.sideOf source form)
      (sideOf form source.context) := by
  refine .of_le_full fun le_full => ?_
  rw [Checked.sideOf, sideOf]
  split
  · refine .looking 1 (looks_current seals) fun kind => ?_
    split
    · rename_i mem
      refine (follows_presentSide seals ?_).weaken (Nat.le_of_succ_le le_full)
      rintro rest ⟨-, rfl⟩
      exact mem
    · rename_i notMem
      refine .congr (fun rest known => ?_) (.pure [] (Nat.le_refl _))
      exact bind_of_ok (eatOneOf_of_notMem (known.2 ▸ notMem))
  · exact .pure [] (Nat.le_succ _)

/-- The side of a condition.  Without a side the field must be next. -/
def conditionSide (ctx : Context) (form : Dialect) : Production (List Tree) := do
  let start ← peek
  if start = .identifier ∨ form.hasSides = true ∧ start ∈ KindSet.linkSide then sideOf form ctx
  else halt ctx .expectedCondition

theorem leafCondition_eq (ctx : Context) (form : Dialect) :
    leafCondition ctx form = (do
      let side ← conditionSide ctx form
      let name ← field ctx
      let rest ← comparison ctx
      node form.condition (side ++ name :: rest)) := by
  rw [leafCondition, conditionSide, bind_assoc]
  congr
  funext start
  split <;> rfl

/-- Where there is no side, the field is looked for. -/
theorem follows_noSide (seals : source.Sealed) {form : Dialect}
    (no_side : ∀ rest, known rest → form.hasSides = true → nextKind rest ∉ KindSet.linkSide) :
    Follows source floor depth known (looks + 4) (looks + 3)
      (do
        if (← Checked.current source) = .identifier then return []
        else Checked.halt source .expectedCondition)
      (conditionSide source.context form) := by
  refine .peek seals fun kind => ?_
  split
  · rename_i at_field
    rw [if_pos (.inl at_field)]
    refine .congr (fun rest known => ?_) (.pure [] (Nat.le_refl _))
    rw [sideOf]
    split
    · refine bind_of_ok (eatOneOf_of_notMem ?_)
      rw [known.2, at_field]
      decide
    · rfl
  · rename_i not_field
    refine .congr (fun rest known => ?_) (follows_halt seals)
    rw [if_neg]
    rintro (at_field | ⟨has_sides, mem⟩)
    · exact not_field at_field
    · exact no_side rest known.1 has_sides (known.2 ▸ mem)

theorem follows_conditionSide (seals : source.Sealed) (form : Dialect) :
    Follows source floor depth known (looks + 5) (looks + 3) (Checked.conditionSide source form)
      (conditionSide source.context form) := by
  refine .of_le_full fun le_full => ?_
  rw [Checked.conditionSide, Checked.sideOf]
  split
  · rename_i has_sides
    rw [bind_assoc]
    refine .looking 1 (looks_current seals) fun kind => ?_
    split
    · rename_i mem
      simp only [bind_assoc, pure_bind]
      have begins : ∀ rest, known rest ∧ nextKind rest = kind →
          nextKind rest ∈ KindSet.linkSide := by
        rintro rest ⟨-, rfl⟩
        exact mem
      refine .congr (fun rest known => ?_)
        ((follows_presentSide seals begins).weaken (Nat.le_trans (by omega) le_full))
      change (ite _ (sideOf form source.context) _ : Production (List Tree)) rest = _
      rw [if_pos (.inr ⟨has_sides, begins rest known⟩), sideOf, if_pos has_sides]
    · rename_i notMem
      rw [pure_bind]
      refine follows_noSide seals ?_
      rintro rest ⟨-, rfl⟩ -
      exact notMem
  · rename_i no_sides
    rw [pure_bind]
    exact (follows_noSide seals fun rest _ has_sides => absurd has_sides no_sides).weaken
      (Nat.le_succ _)

theorem follows_leafCondition (seals : source.Sealed) (form : Dialect) :
    Follows source floor depth known (looks + 6) (fullLooks - 1) (Checked.leafCondition source form)
      (leafCondition source.context form) := by
  rw [leafCondition_eq]
  exact (follows_conditionSide seals form).bind fun side => (follows_field seals).bind fun name =>
    (follows_comparison seals).bind fun rest => .node (Nat.le_refl _)

section

variable {form : Dialect} {inner : Run Tree} {inner' : Production Tree}

theorem follows_condition (seals : source.Sealed)
    (follows_inner : ∀ floor known looks,
      Follows source (floor + 1) depth known looks fullLooks (Checked.nested source inner)
        inner') :
    Follows source floor depth known (looks + 7) (fullLooks - 1)
      (Checked.condition source form inner) (condition source.context form inner') :=
  .eat seals (by decide)
    (fun _ _ => (follows_inner _ _ _).bind fun _ =>
      (follows_closeParen seals).bind fun _ => .node (by decide))
    (follows_leafCondition seals form)

theorem follows_conditions (seals : source.Sealed)
    (follows_inner : ∀ floor known looks,
      Follows source (floor + 1) depth known looks fullLooks (Checked.nested source inner)
        inner') :
    Follows source floor depth known (looks + 8) (fullLooks - 2)
      (Checked.conditions source form inner) (conditions source.context form inner') := by
  have not_end : .endMark ∉ KindSet.andOr := by decide
  exact follows_linked seals not_end fun _ _ => (follows_optional seals (by decide)).bind fun _ =>
    (follows_condition seals follows_inner).bind fun _ => .pure _ (Nat.le_refl _)

end

/-- As many nested expressions are allowed as the limit leaves, and without a limit as many as there
are tokens. -/
def Checked.Source.allowed (source : Source) (depth : Nat) : Nat :=
  source.limit.getD source.tokens.length - depth

theorem allowed_eq_zero (reached : source.limit.any (· ≤ depth) = true) :
    source.allowed depth = 0 := by
  rw [Checked.Source.allowed]
  cases limit_eq : source.limit with
  | none => simp [limit_eq] at reached
  | some limit =>
      rw [limit_eq, Option.any_some, decide_eq_true_eq] at reached
      exact Nat.sub_eq_zero_of_le reached

theorem allowed_eq_succ (not_reached : source.limit.any (· ≤ depth) = false)
    (lt : depth < source.tokens.length) :
    source.allowed depth = source.allowed (depth + 1) + 1 := by
  rw [Checked.Source.allowed, Checked.Source.allowed]
  cases limit_eq : source.limit with
  | none => exact (Nat.succ_pred_eq_of_pos (Nat.sub_pos_of_lt lt)).symm
  | some limit =>
      rw [limit_eq, Option.any_some, decide_eq_false_iff_not, Nat.not_le] at not_reached
      exact (Nat.succ_pred_eq_of_pos (Nat.sub_pos_of_lt not_reached)).symm

theorem follows_expression (seals : source.Sealed) (form : Dialect) {levels : Nat}
    (levels_eq : levels + depth = source.tokens.length) :
    Follows source floor depth known (looks + 8) (fullLooks - 2)
      (Checked.expression source form levels)
      (expression source.context form (source.allowed depth)) := by
  induction levels generalizing floor depth known looks with
  | zero =>
      rw [Checked.expression, expression_eq]
      refine follows_conditions seals ?_
      -- Behind an open parenthesis there are fewer levels than tokens.
      intro floor known looks cursor rest stands
      have floor_le := stands.floor_le
      have position_le := stands.position_le
      omega
  | succ levels ih =>
      rw [Checked.expression, expression_eq]
      refine follows_conditions seals ?_
      intro floor known looks
      cases reached : source.limit.any (· ≤ depth) with
      | true =>
          rw [allowed_eq_zero reached]
          exact follows_nested_of_limit reached
      | false =>
          rw [allowed_eq_succ reached (by omega)]
          exact follows_nested (ih (by omega)) reached

/-! ## Clauses -/

theorem follows_fieldList (seals : source.Sealed) :
    Follows source floor depth known (looks + 4) (fullLooks - 1) (Checked.fieldList source)
      (fieldList source.context) :=
  follows_linked seals (by decide) fun _ _ =>
    (follows_field seals).bind fun name => .pure [name] (Nat.le_refl _)

theorem follows_orderList (seals : source.Sealed) (form : Dialect) :
    Follows source floor depth known (looks + 5) (fullLooks - 2) (Checked.orderList source form)
      (orderList source.context form) := by
  have not_end : .endMark ∉ KindSet.single .comma := by decide
  exact follows_linked seals not_end fun _ _ => (follows_sideOf seals form).bind fun _ =>
    (follows_field seals).bind fun _ =>
      (follows_optional seals (by decide)).bind fun _ => .pure _ (Nat.le_refl _)

theorem follows_clause (seals : source.Sealed) {word : Kind} (not_end : word ≠ .endMark)
    {body : Run Tree} {body' : Production Tree} {left : Nat}
    (follows_body : ∀ floor known, Follows source floor depth known fullLooks left body body')
    (le : left ≤ looks + 1) :
    Follows source floor depth known (looks + 2) left (Checked.clause source word body)
      (clause word body') :=
  .eat seals not_end (fun _ _ => (follows_body _ _).bind fun _ => .pure _ (Nat.le_refl _))
    (.pure [] le)

theorem follows_filterClauses (seals : source.Sealed) (form : Dialect) :
    Follows source floor 0 known fullLooks (fullLooks - 3) (Checked.filterClauses source form)
      (filterClauses source.context form (source.allowed 0)) := by
  refine (follows_clause seals (by decide)
    (fun _ _ => follows_expression seals form (Nat.add_zero _)) (by decide)).bind fun filter => ?_
  refine (follows_clause seals (by decide)
    (fun _ _ => (follows_orderList seals form).weaken ?_) ?_).bind fun order =>
      .pure _ (Nat.le_refl _)
  · decide
  · decide

theorem follows_asof (seals : source.Sealed) :
    Follows source floor depth known (looks + 2) (looks + 1)
      (Checked.clause source .asofKw (Checked.date source))
      (clause .asofKw (date source.context)) :=
  .of_le_full fun le_full => follows_clause seals (by decide)
    (fun _ _ => (follows_date seals).weaken (Nat.le_of_succ_le le_full)) (Nat.le_refl _)

theorem mode_of_recursive {ctx : Context} {word : Token} (word_kind : word.kind = .recursiveKw)
    (rest : List Token) :
    mode ctx (word :: rest) = (do
      match ← eat .comma with
      | none => return (Kind.recursiveSelect, [Tree.leaf word])
      | some comma => do
        let matching ← expectToken ctx .matchingChildrenKw
        return (Kind.recursiveSelect, [Tree.leaf word, .leaf comma, .leaf matching])) rest := by
  have not_word : nextKind (word :: rest) ∉ KindSet.linkMode := by
    rw [nextKind_cons, word_kind]
    decide
  rw [mode, bind_of_ok (eatOneOf_of_notMem not_word)]
  exact bind_of_ok (eat_cons word_kind rest)

theorem follows_mode (seals : source.Sealed) :
    Follows source floor depth known (looks + 4) (fullLooks - 1) (Checked.mode source)
      (mode source.context) := by
  have follows_word : ∀ {known : List Token → Prop} {looks : Nat},
      (∀ rest, known rest → nextKind rest ∈ KindSet.linkMode) →
      Follows source floor depth known (looks + 1) (fullLooks - 1)
        (do let word ← Checked.take source; return (.oneHopSelect, [.leaf word]))
        (mode source.context) := by
    intro known looks is_word
    refine .take seals (fun rest holds at_end => ?_)
      (fun word rest holds => bind_of_ok (eatOneOf_cons (is_word _ holds) rest))
      fun word => .pure (Kind.oneHopSelect, [Tree.leaf word]) (by decide)
    exact absurd (at_end ▸ is_word rest holds) (by decide)
  refine .looking 1 (looks_current seals) fun kind => ?_
  split
  · exact follows_word fun rest known => known.2 ▸ by decide
  · exact follows_word fun rest known => known.2 ▸ by decide
  · exact follows_word fun rest known => known.2 ▸ by decide
  · refine .take seals (fun rest known => known.2 ▸ nofun)
      (fun word rest known => mode_of_recursive known.2 rest) fun word => ?_
    exact .eat seals (by decide)
      (fun comma _ => (follows_expectToken seals (by decide)).bind fun _ => .pure _ (by decide))
      (.pure _ (Nat.le_refl _))
  · rename_i not_must not_may not_does_not not_recursive
    refine .congr (fun rest known => ?_) (follows_halt seals)
    have not_word : nextKind rest ∉ KindSet.linkMode := by
      have only : ∀ kind, kind ∈ KindSet.linkMode →
          kind = .mustContainKw ∨ kind = .mayContainKw ∨ kind = .doesNotContainKw := by decide
      rw [known.2]
      intro mem
      rcases only kind mem with at_word | at_word | at_word
      · exact not_must at_word
      · exact not_may at_word
      · exact not_does_not at_word
    rw [mode, bind_of_ok (eatOneOf_of_notMem not_word)]
    exact bind_of_ok (eat_of_ne (known.2 ▸ not_recursive))

theorem follows_modeClause (seals : source.Sealed)
    (begins : ∀ rest, known rest → nextKind rest = .modeKw) :
    Follows source floor depth known (looks + 2) fullLooks (Checked.modeClause source)
      (modeClause source.context) := by
  refine .check seals begins ?_
  refine .take seals (fun rest known => begins rest known ▸ nofun)
    (fun word rest known => bind_of_ok (eat_cons (begins _ known) rest)) fun word => ?_
  exact (follows_expectToken seals (by decide)).bind fun opened =>
    (follows_mode seals).bind fun inside =>
      (follows_closeParen seals).bind fun closed => .pure _ (Nat.le_refl _)

/-! ## The date and the mode -/

theorem clause_bind_cons {β : Type} {word : Kind} {body : Production Tree}
    {next : List Tree → Production β} {found : Token} (found_kind : found.kind = word)
    (rest : List Token) :
    (clause word body >>= next) (found :: rest) =
      (body >>= fun tree => next [.leaf found, tree]) rest := by
  rw [clause, bind_assoc, bind_of_ok (eat_cons found_kind rest)]
  dsimp only
  rw [bind_assoc]
  rfl

theorem clause_of_ne {word : Kind} {body : Production Tree} {tokens : List Token}
    (ne : nextKind tokens ≠ word) : clause word body tokens = .ok ([], tokens) :=
  bind_of_ok (eat_of_ne ne)

theorem modeClause_of_ne {ctx : Context} {tokens : List Token} (ne : nextKind tokens ≠ .modeKw) :
    modeClause ctx tokens = .ok ((.oneHopSelect, []), tokens) :=
  bind_of_ok (eat_of_ne ne)

theorem linkClauses_of_nextKind {ctx : Context} {tokens : List Token}
    (at_mode : nextKind tokens = .modeKw) :
    linkClauses ctx tokens = (do
      let (kind, mode) ← modeClause ctx
      let asof ← clause .asofKw (date ctx)
      return (kind, mode ++ asof)) tokens := by
  change (ite (nextKind tokens = .modeKw) _ _ : Production (Kind × List Tree)) tokens = _
  rw [if_pos at_mode]

theorem linkClauses_of_ne {ctx : Context} {tokens : List Token} (ne : nextKind tokens ≠ .modeKw) :
    linkClauses ctx tokens = (do
      let asof ← clause .asofKw (date ctx)
      let (kind, mode) ← modeClause ctx
      return (kind, asof ++ mode)) tokens := by
  change (ite (nextKind tokens = .modeKw) _ _ : Production (Kind × List Tree)) tokens = _
  rw [if_neg ne]

/-- Nothing is missing. -/
theorem follows_noClauses (seals : source.Sealed) (kind : Kind) :
    Follows source floor depth known (looks + 1) looks
      (Checked.linkClauses source kind false false) (pure (kind, [])) := by
  rw [Checked.linkClauses]
  refine .looking 1 (looks_current seals) fun next => ?_
  rw [dif_neg (by simp), dif_neg (by simp)]
  exact .pure _ (Nat.le_refl _)

/-- The date is missing. -/
theorem follows_dateClause (seals : source.Sealed) (kind : Kind) :
    Follows source floor depth known (looks + 2) (looks + 1)
      (Checked.linkClauses source kind true false)
      (clause .asofKw (date source.context) >>= fun asof => pure (kind, asof)) := by
  refine .of_le_full fun le_full => ?_
  rw [Checked.linkClauses]
  refine .looking 1 (looks_current seals) fun next => ?_
  by_cases at_date : next = .asofKw
  · rw [dif_pos ⟨at_date, rfl⟩]
    subst at_date
    refine .take seals (fun rest known => known.2 ▸ nofun)
      (fun word rest known => clause_bind_cons known.2 rest) fun word => ?_
    exact (follows_date seals).bind fun tree =>
      (follows_noClauses seals kind).bind fun answer => .pure _ (Nat.le_of_succ_le_succ le_full)
  · rw [dif_neg fun both => at_date both.1, dif_neg (by simp)]
    refine .congr (fun rest known => ?_) (.pure (kind, []) (Nat.le_refl _))
    rw [bind_of_ok (clause_of_ne (known.2 ▸ at_date))]

/-- The mode is missing.  Without it the query goes one step. -/
theorem follows_lateMode (seals : source.Sealed) :
    Follows source floor depth known (looks + 3) (looks + 2)
      (Checked.linkClauses source .oneHopSelect false true) (modeClause source.context) := by
  refine .of_le_full fun le_full => ?_
  rw [Checked.linkClauses]
  refine .looking 1 (looks_current seals) fun next => ?_
  rw [dif_neg (by simp)]
  by_cases at_mode : next = .modeKw
  · rw [dif_pos ⟨at_mode, rfl⟩]
    subst at_mode
    have split_eq : modeClause source.context = (do
        let (kind, clause) ← modeClause source.context
        let answer ← pure (kind, [])
        return (answer.1, clause ++ answer.2)) := by
      simp
    rw [split_eq]
    exact (follows_modeClause seals fun rest known => known.2).bind fun made =>
      (follows_noClauses seals made.1).bind fun answer => .pure _ (Nat.le_of_succ_le_succ le_full)
  · rw [dif_neg fun both => at_mode both.1]
    refine .congr (fun rest known => ?_) (.pure (Kind.oneHopSelect, []) (Nat.le_refl _))
    exact modeClause_of_ne (known.2 ▸ at_mode)

theorem follows_linkClauses (seals : source.Sealed) :
    Follows source floor depth known (looks + 3) (looks + 1)
      (Checked.linkClauses source .oneHopSelect true true) (linkClauses source.context) := by
  refine .of_le_full fun le_full => ?_
  have le_left : looks + 1 ≤ fullLooks - 1 := Nat.le_of_succ_le (Nat.le_sub_one_of_lt le_full)
  rw [Checked.linkClauses]
  refine .looking 1 (looks_current seals) fun next => ?_
  by_cases at_date : next = .asofKw
  · rw [dif_pos ⟨at_date, rfl⟩]
    subst at_date
    refine .congr (fun rest known => linkClauses_of_ne (known.2 ▸ nofun)) ?_
    refine .take seals (fun rest known => known.2 ▸ nofun)
      (fun word rest known => clause_bind_cons known.2 rest) fun word => ?_
    exact (follows_date seals).bind fun tree =>
      (follows_lateMode seals).bind fun made => .pure _ le_left
  rw [dif_neg fun both => at_date both.1]
  by_cases at_mode : next = .modeKw
  · rw [dif_pos ⟨at_mode, rfl⟩]
    subst at_mode
    have split_eq : ∀ rest, nextKind rest = .modeKw →
        linkClauses source.context rest = (do
          let (kind, clause) ← modeClause source.context
          let (kind, rest) ← Grammar.clause .asofKw (date source.context) >>= fun asof =>
            pure (kind, asof)
          return (kind, clause ++ rest)) rest := by
      intro rest at_mode
      simp [linkClauses_of_nextKind at_mode]
    refine .congr (fun rest known => split_eq rest known.2) ?_
    exact (follows_modeClause seals fun rest known => known.2).bind fun made =>
      (follows_dateClause seals made.1).bind fun behind => .pure _ le_left
  · rw [dif_neg fun both => at_mode both.1]
    refine .congr (fun rest known => ?_) (.pure (Kind.oneHopSelect, []) (Nat.le_succ _))
    rw [linkClauses_of_ne (known.2 ▸ at_mode), bind_of_ok (clause_of_ne (known.2 ▸ at_date)),
      bind_of_ok (modeClause_of_ne (known.2 ▸ at_mode))]
    rfl

/-! ## Queries -/

theorem follows_flatTail (seals : source.Sealed) {head : List Tree} {production : Production Tree}
    (begins : ∀ rest, known rest → nextKind rest = .workItemsKw)
    (taken : ∀ place rest, known (place :: rest) → production (place :: rest) =
      flatTail source.context (source.allowed 0) (head ++ [.leaf place]) rest) :
    Follows source floor 0 known (looks + 2) (fullLooks - 5) (Checked.flatTail source head)
      production := by
  refine .check seals begins ?_
  refine .take seals (fun rest known => begins rest known ▸ nofun) taken fun place => ?_
  refine (follows_filterClauses seals .flat).bind fun filter => ?_
  refine (follows_asof seals).bind fun asof => ?_
  refine .peek seals fun kind => ?_
  split
  · exact follows_halt seals
  · rw [List.append_cons]
    exact .node (Nat.le_refl _)

theorem follows_linkTail (seals : source.Sealed) {head : List Tree} {production : Production Tree}
    (begins : ∀ rest, known rest → nextKind rest = .workItemLinksKw)
    (taken : ∀ place rest, known (place :: rest) → production (place :: rest) =
      linkTail source.context (source.allowed 0) (head ++ [.leaf place]) rest) :
    Follows source floor 0 known (looks + 2) (fullLooks - 5) (Checked.linkTail source head)
      production := by
  refine .check seals begins ?_
  refine .take seals (fun rest known => begins rest known ▸ nofun) taken fun place => ?_
  refine (follows_filterClauses seals .link).bind fun filter => ?_
  refine (follows_linkClauses seals).bind fun clauses => ?_
  rw [List.append_cons]
  exact .node (Nat.le_refl _)

theorem follows_query (seals : source.Sealed) :
    Follows source floor 0 known (looks + 4) (fullLooks - 5) (Checked.query source)
      (query source.context (source.allowed 0)) := by
  refine (follows_expect seals (by decide)).bind fun select => ?_
  refine (follows_fieldList seals).bind fun fields => ?_
  refine (follows_expect seals (by decide)).bind fun origin => ?_
  refine .looking 1 (looks_current seals) fun kind => ?_
  split
  · exact follows_flatTail seals (fun rest known => known.2)
      fun place rest known => bind_of_ok (eat_cons known.2 rest)
  · refine follows_linkTail seals (fun rest known => known.2) ?_
    rintro place rest ⟨-, place_kind⟩
    have not_flat : nextKind (place :: rest) ≠ .workItemsKw := place_kind ▸ nofun
    rw [bind_of_ok (eat_of_ne not_flat)]
    exact bind_of_ok (eat_cons place_kind rest)
  · rename_i not_flat not_link
    refine .congr (fun rest known => ?_) (follows_halt seals)
    rw [bind_of_ok (eat_of_ne (known.2 ▸ not_flat))]
    exact bind_of_ok (eat_of_ne (known.2 ▸ not_link))

/-- Behind a query that is not the end, what follows it is reported, unless it marks a mistake in
the text, and nothing is taken. -/
theorem trailing_apply (seals : source.Sealed) {cursor : Cursor} {rest : List Token}
    (stands : Stands source floor depth cursor rest) (enough : 2 ≤ cursor.looks)
    (goes_on : nextKind rest ≠ .endMark) :
    ∃ after, Checked.trailing source cursor = (.ok (), after) ∧ after.position = cursor.position ∧
      after.fault? = none ∧
      after.reports = source.start.reports ++ (trailingReport? source.context rest).toList := by
  obtain ⟨left, spent, left_le, token_eq⟩ :=
    looks_currentToken seals floor depth cursor rest stands (Nat.le_of_succ_le enough)
  have stands' := stands.withLooks left_le
  by_cases is_lexical : (source.context.current rest).kind.isLexicalError
  · refine ⟨{ cursor with looks := left }, ?_, rfl, stands.faultless, ?_⟩
    · rw [Checked.trailing, run_of_ok token_eq, if_pos is_lexical]
      rfl
    · rw [trailingReport?, if_pos (.inr is_lexical)]
      simpa using stands.reports_eq
  · obtain ⟨left', -, left_le', shown_eq⟩ :=
      looks_found seals floor depth _ rest stands' (Nat.le_of_add_le_add_right
        (Nat.le_trans enough spent))
    let report : Diagnostic :=
      (Diagnostic.of .trailingInput ((source.context.current rest).span.cover
        (match source.context.final.prev? with
          | none => source.context.current rest
          | some last => last).span)).withDetail ("found " ++ (source.context.current rest).shown)
    have report_eq : trailingReport? source.context rest = some report := by
      rw [trailingReport?]
      refine if_neg ?_
      rintro (at_end | lexical)
      · exact goes_on (seals.context_closed.current_kind rest ▸ at_end)
      · exact is_lexical lexical
    let shown : Cursor := { cursor with looks := left' }
    refine ⟨{ shown with
      reports := shown.reports ++ [report], reported? := some report.span.start },
      ?_, rfl, stands.faultless, ?_⟩
    · rw [Checked.trailing, run_of_ok token_eq, if_neg is_lexical]
      exact (run_of_ok shown_eq).trans
        (report_of_stands (stands'.withLooks left_le') report)
    · rw [report_eq]
      exact congrArg (· ++ [report]) stands.reports_eq

/-- How the reading of a whole list ends, with a query or without one. -/
inductive Concludes (source : Source) :
    Except Break Tree × Cursor → Except Stop (Tree × List Token) → Prop where
  /-- What is behind the query has been reported, and nothing else. -/
  | read (root : Tree) (cursor : Cursor) (rest : List Token) :
      source.tokens.drop cursor.position = rest → cursor.position ≤ source.tokens.length →
      cursor.fault? = none →
      cursor.reports = source.start.reports ++ (trailingReport? source.context rest).toList →
      Concludes source (.ok root, cursor) (.ok (root, rest))
  /-- The reading breaks off as the query stops. -/
  | stopped (stop : Stop) (broken : Break) (cursor : Cursor) : BreaksOff source stop broken cursor →
      Concludes source (.error broken, cursor) (.error stop)

theorem root_concludes (seals : source.Sealed) :
    Concludes source (Checked.root source source.start)
      (query source.context (source.allowed 0) source.tokens) := by
  have follows : Follows source 0 0 (fun _ => True) fullLooks (fullLooks - 5) _ _ :=
    follows_query seals
  have answers := follows source.start source.tokens (stands_start source) trivial (Nat.le_refl _)
  rw [Checked.root, run_apply]
  generalize Checked.query source source.start = answer,
    query source.context (source.allowed 0) source.tokens = answer' at answers
  cases answers with
  | stopped stop broken cursor breaks => exact .stopped stop broken cursor breaks
  | answered root cursor rest stands enough =>
      have three_le : 2 + 1 ≤ cursor.looks := Nat.le_trans (by decide) enough
      obtain ⟨left, spent, left_le, current_eq⟩ := looks_current seals 0 0 cursor rest stands
        (Nat.le_trans (by decide) three_le)
      have stands' := stands.withLooks left_le
      dsimp only [ExceptT.bindCont]
      rw [run_of_ok current_eq]
      split
      · rename_i at_end
        have current_kind := seals.context_closed.current_kind rest
        refine .read root _ rest stands'.rest_eq stands'.position_le stands'.faultless ?_
        rw [trailingReport?, if_pos (.inl (current_kind.trans at_end)), stands'.reports_eq]
        simp
      · rename_i goes_on
        obtain ⟨after, after_eq, position_eq, faultless, reports_eq⟩ := trailing_apply seals stands'
          (Nat.le_of_add_le_add_right (Nat.le_trans three_le spent)) goes_on
        rw [run_of_ok after_eq]
        refine .read root after rest ?_ ?_ faultless reports_eq
        · rw [position_eq]
          exact stands'.rest_eq
        · rw [position_eq]
          exact stands'.position_le

/-! ## Whole token lists -/

theorem withEndMark_sealed (limit : Option Nat) (tokens : List Token) :
    Source.Sealed ⟨withEndMark tokens, limit⟩ := by
  rcases List.eq_nil_or_concat tokens with rfl | ⟨init, last, rfl⟩
  · exact ⟨[], _, rfl, rfl⟩
  · rw [List.concat_eq_append, Checked.Source.Sealed, withEndMark, List.getLast?_concat]
    dsimp only
    split
    · rename_i last_kind
      exact ⟨init, last, rfl, last_kind⟩
    · exact ⟨_, _, rfl, rfl⟩

theorem parse_eq_readingOf (limit : Option Nat) (tokens : List Token) :
    parse limit tokens =
      readingOf (Source.context ⟨withEndMark tokens, limit⟩) (withEndMark tokens)
        (query (Source.context ⟨withEndMark tokens, limit⟩)
          (limit.getD (withEndMark tokens).length) (withEndMark tokens)) := rfl

theorem answer_of_faultless {root? : Option Tree} {cursor : Cursor} (more : List Diagnostic)
    (faultless : cursor.fault? = none)
    (reports_eq : cursor.reports = source.start.reports ++ more) :
    Checked.answer source root? cursor =
      .ok ⟨source.tokens, root?, source.tokens.filterMap lexicalReport? ++ more⟩ := by
  rw [Checked.answer, faultless, reports_eq]
  rfl

/-- The answer is the one that the query gives. -/
theorem Concludes.conclude_eq {answer : Except Break Tree × Cursor}
    {answer' : Except Stop (Tree × List Token)} (concludes : Concludes source answer answer') :
    Checked.conclude source answer =
      (readingOf source.context source.tokens answer').mapError .fault := by
  cases concludes with
  | read root cursor rest rest_eq position_le faultless reports_eq =>
      exact answer_of_faultless _ faultless reports_eq
  | stopped stop broken cursor breaks =>
      cases breaks with
      | report diagnostic cursor faultless reports_eq =>
          exact answer_of_faultless [diagnostic] faultless reports_eq
      | silent cursor faultless reports_eq =>
          rw [← List.append_nil source.start.reports] at reports_eq
          refine (answer_of_faultless [] faultless reports_eq).trans ?_
          rw [List.append_nil]
          rfl
      | failed fault cursor fault_eq =>
          rw [Checked.conclude, Checked.answer, fault_eq]
          rfl
      | fault fault cursor => rfl

/-- No check fails: for any tokens and any limit the checked reading is the plain one. -/
theorem checked_parse_eq (limit : Option Nat) (tokens : List Token) :
    Checked.parse limit tokens = (parse limit tokens).mapError .fault := by
  rw [parse_eq_readingOf]
  exact (root_concludes (withEndMark_sealed limit tokens)).conclude_eq

/-- Without a limit there is no answer only where the tokens end before an open parenthesis. -/
theorem parse_none_cases (tokens : List Token) :
    (∃ reading, parse none tokens = .ok reading) ∨ parse none tokens = .error .invertedSpan := by
  have closed := (withEndMark_sealed none tokens).context_closed
  have outcome := reads_query closed (withEndMark tokens).length (withEndMark tokens)
    (Nat.lt_succ_self _)
  rw [parse_eq_readingOf, Option.getD_none]
  generalize query (Source.context ⟨withEndMark tokens, none⟩) (withEndMark tokens).length
    (withEndMark tokens) = answer at outcome
  cases outcome with
  | taken tree taken rest tokens_eq holds again => exact .inl ⟨_, rfl⟩
  | stopped stop taken rest tokens_eq stops completes again =>
      cases stops with
      | silent | misfit | ended | unclosed => exact .inl ⟨_, rfl⟩
      | inverted => exact .inr rfl

/-- A limit has no part in the answer unless it is run into. -/
theorem parse_some_cases (limit : Nat) (tokens : List Token) :
    parse (some limit) tokens = .error .recursionLimit ∨
      parse (some limit) tokens = parse none tokens := by
  let ctx := Source.context ⟨withEndMark tokens, none⟩
  have closed : ctx.Closed := (withEndMark_sealed none tokens).context_closed
  have parse_eq : ∀ limit, parse limit tokens = readingOf ctx (withEndMark tokens)
      (query ctx (limit.getD (withEndMark tokens).length) (withEndMark tokens)) :=
    fun limit => parse_eq_readingOf limit tokens
  rw [parse_eq, parse_eq, Option.getD_some, Option.getD_none]
  by_cases limited : Limited (query ctx limit) (withEndMark tokens)
  · exact .inl (congrArg (readingOf ctx (withEndMark tokens)) limited)
  · have free : ¬ Limited (query ctx (withEndMark tokens).length) (withEndMark tokens) :=
      (reads_query closed _).not_limited (Nat.lt_succ_self _)
    exact .inr (congrArg (readingOf ctx (withEndMark tokens))
      (Approximates.eq_of_free (fun limit limit' le => .query le) limited free))

theorem parse_cases (limit : Option Nat) (tokens : List Token) :
    parse limit tokens = .error .recursionLimit ∧ limit ≠ none ∨
      parse limit tokens = parse none tokens := by
  cases limit with
  | none => exact .inr rfl
  | some limit => exact (parse_some_cases limit tokens).imp_left fun limited => ⟨limited, nofun⟩

/-- No check ever fails.  Whatever the tokens and the limit, the checked reading answers what the
plain one does.  It has no answer only where conditions nest deeper than the limit, or where the
tokens end before an open parenthesis, and the tokens of a text never do. -/
theorem checked_parse_safe :
    (∀ limit tokens,
      Checked.parse limit tokens = (parse limit tokens).mapError .fault ∧
      ((∃ reading, Checked.parse limit tokens = .ok reading) ∨
        Checked.parse limit tokens = .error (.fault .recursionLimit) ∧ limit ≠ none ∨
        Checked.parse limit tokens = .error (.fault .invertedSpan))) ∧
    ∀ limit source,
      (∃ reading, Checked.parse limit (tokenize source) = .ok reading) ∨
        Checked.parse limit (tokenize source) = .error (.fault .recursionLimit) ∧
          limit ≠ none := by
  refine ⟨fun limit tokens => ⟨checked_parse_eq limit tokens, ?_⟩, fun limit source => ?_⟩
  · rw [checked_parse_eq]
    obtain ⟨limited, is_some⟩ | same := parse_cases limit tokens
    · exact .inr (.inl ⟨by rw [limited]; rfl, is_some⟩)
    · rw [same]
      obtain ⟨reading, reading_eq⟩ | inverted := parse_none_cases tokens
      · exact .inl ⟨reading, by rw [reading_eq]; rfl⟩
      · exact .inr (.inr (by rw [inverted]; rfl))
  · rw [checked_parse_eq]
    obtain ⟨limited, is_some⟩ | same := parse_cases limit (tokenize source)
    · exact .inr ⟨by rw [limited]; rfl, is_some⟩
    · obtain ⟨init, final, tokens_eq, is_list, -⟩ := exists_tokenize_eq source
      obtain ⟨reading, verdict, reading_eq, -⟩ := parse_of_isTokenList is_list
      rw [same, tokens_eq, reading_eq]
      exact .inl ⟨reading, rfl⟩

end Grammar
end WorkItemQuery
