import WorkItemQuery.Proofs.Grammar.Words
import WorkItemQuery.Proofs.Token.Sides

/-!
# Neighbours in derivation trees

In the word of a derivation tree no name stands before another name, or before a word that begins
with a letter that names do not have.  A side of a link stands only where a condition or a sort key
begins, and before a dot.  Each production is passed from the kinds that may come next where it
begins to those that may come next where it ends.
-/

namespace WorkItemQuery
namespace Grammar

open Lexer

/-- What may stand where a condition or a sort key may begin: all tokens of queries. -/
def afterOpener : KindSet := ⟨fun kind => !straying.contains kind⟩

/-- What may stand where no condition and no sort key begins. -/
def afterWord : KindSet :=
  ⟨fun kind => afterOpener.contains kind && !KindSet.linkSide.contains kind⟩

/-- What may stand behind a name. -/
def afterName : KindSet := ⟨fun kind => afterWord.contains kind && !notBehindName.contains kind⟩

theorem mem_afterWord : ∀ kind, kind ∈ afterName → kind ∈ afterWord := by decide

theorem mem_afterOpener : ∀ kind, kind ∈ afterWord → kind ∈ afterOpener := by decide

/-- What may stand behind a token of the kind. -/
def followers (kind : Kind) : KindSet :=
  if kind = .identifier then afterName
  else if kind ∈ KindSet.linkSide then .single .dot
  else if kind ∈ itemOpeners then afterOpener
  else afterWord

/-- The second token may stand behind the first. -/
def MayPrecede (first second : Token) : Prop := second.kind ∈ followers first.kind

/-- The tokens may go on where the kinds may come next. -/
structure Joins (next : KindSet) (tokens : List Token) : Prop where
  /-- Each token may stand behind the one before it. -/
  apart : tokens.IsChain MayPrecede
  /-- The first one may come next. -/
  head_mem : ∀ token ∈ tokens.head?, token.kind ∈ next
  /-- All are tokens of queries. -/
  regular : ∀ token ∈ tokens, token.kind ∉ straying

/-- The tokens lead from where some kinds may come next to where others may. -/
def Passes (next next' : KindSet) (tokens : List Token) : Prop :=
  ∀ rest, Joins next' rest → Joins next (tokens ++ rest)

/-- A token of the kind leads from the one place to the other. -/
def mayPass (next next' : KindSet) (kind : Kind) : Bool :=
  kind ∈ next ∧ (∀ other, other ∈ next' → other ∈ followers kind) ∧ kind ∉ straying

section

variable {next middle next' : KindSet}

theorem Passes.nil (subset : ∀ kind, kind ∈ next' → kind ∈ next) : Passes next next' [] :=
  fun _ joins => ⟨joins.apart, fun token mem => subset _ (joins.head_mem token mem), joins.regular⟩

theorem Passes.append {front back : List Token} (front_passes : Passes next middle front)
    (back_passes : Passes middle next' back) : Passes next next' (front ++ back) := by
  intro rest joins
  rw [List.append_assoc]
  exact front_passes _ (back_passes rest joins)

theorem Passes.single {token : Token} (kind_passes : mayPass next next' token.kind = true) :
    Passes next next' [token] := by
  obtain ⟨may_come, leads, not_straying⟩ := of_decide_eq_true kind_passes
  rintro rest ⟨apart, head_mem, regular⟩
  refine ⟨List.isChain_cons.2 ⟨fun other mem => leads _ (head_mem other mem), apart⟩, ?_,
    List.forall_mem_cons.2 ⟨not_straying, regular⟩⟩
  rintro _ ⟨⟩
  exact may_come

theorem Passes.of_kind {token : Token} {kind : Kind} (token_kind : token.kind = kind)
    (kind_passes : mayPass next next' kind = true) : Passes next next' [token] :=
  .single (token_kind ▸ kind_passes)

theorem Passes.of_mem {kinds : KindSet}
    (all_pass : ∀ kind, kind ∈ kinds → mayPass next next' kind = true) {token : Token}
    (mem : token.kind ∈ kinds) : Passes next next' [token] :=
  .single (all_pass _ mem)

/-- Where more may come next the tokens may begin as well. -/
theorem Passes.begin {tokens : List Token} {more : KindSet} (passes : Passes next next' tokens)
    (subset : ∀ kind, kind ∈ next → kind ∈ more) : Passes more next' tokens :=
  (Passes.nil subset).append passes

/-- Where less may come next the tokens may end as well. -/
theorem Passes.end {tokens : List Token} {less : KindSet} (passes : Passes next next' tokens)
    (subset : ∀ kind, kind ∈ less → kind ∈ next') : Passes next less tokens := by
  have all_passes := passes.append (.nil subset)
  rwa [List.append_nil] at all_passes

/-- What leads from behind a name leads from behind a word, and what leads behind a word leads
behind a name. -/
theorem Passes.mono {tokens : List Token} (passes : Passes afterName afterWord tokens) :
    Passes afterWord afterName tokens := (passes.begin mem_afterWord).end mem_afterWord

end

/-! ## Values and operators -/

theorem IsField.passes {tree : Tree} (is_field : IsField tree) :
    Passes afterWord afterName tree.tokens := by
  cases is_field with
  | name name name_kind => exact .of_kind name_kind rfl

theorem IsNumber.passes {tree : Tree} (is_number : IsNumber tree) :
    Passes afterName afterWord tree.tokens := by
  cases is_number with
  | plain digits digits_kind => exact .of_kind digits_kind rfl
  | negative minus digits minus_kind digits_kind =>
      have signed : Passes afterName afterWord _ := Passes.of_kind minus_kind rfl
      exact signed.append (.of_kind digits_kind rfl)

theorem IsDate.passes {tree : Tree} (is_date : IsDate tree) :
    Passes afterName afterWord tree.tokens := by
  cases is_date with
  | literal text text_kind => exact .of_kind text_kind rfl

theorem IsTerm.passes {tree : Tree} (is_term : IsTerm tree) :
    Passes afterWord afterName tree.tokens := by
  cases is_term with
  | number tree is_number => exact is_number.passes.mono
  | field tree is_field => exact is_field.passes
  | simple token mem => exact .of_mem (by decide) mem

theorem IsValue.passes {tree : Tree} (is_value : IsValue tree) :
    Passes afterWord afterName tree.tokens := by
  cases is_value with
  | plain term is_term => simpa using is_term.passes
  | shifted term sign offset is_term sign_mem is_number =>
      have sign_passes : Passes afterName afterWord [sign] := .of_mem (by decide) sign_mem
      simpa using is_term.passes.append (sign_passes.append is_number.passes.mono)

theorem IsChain.passes {kind : Kind} {separators first : KindSet} {IsItem : List Tree → Prop}
    {tree : Tree} (is_chain : IsChain kind separators IsItem tree)
    (separators_pass : ∀ kind, kind ∈ separators → mayPass afterName first kind = true)
    (item_passes : ∀ trees, IsItem trees → Passes first afterName (Tree.tokensAll trees)) :
    Passes first afterName tree.tokens := by
  induction is_chain with
  | last trees is_item => exact item_passes trees is_item
  | more trees separator rest is_item mem _ ih =>
      simpa using (item_passes trees is_item).append ((Passes.of_mem separators_pass mem).append ih)

theorem IsOptional.passes {kinds next : KindSet} {trees : List Tree}
    (is_optional : IsOptional kinds trees)
    (all_pass : ∀ kind, kind ∈ kinds → mayPass next next kind = true) :
    Passes next next (Tree.tokensAll trees) := by
  cases is_optional with
  | absent => exact .nil fun _ mem => mem
  | present token mem => exact .of_mem all_pass mem

theorem IsOperatorProper.passes {tree : Tree} (is_proper : IsOperatorProper tree) :
    Passes afterName afterWord tree.tokens := by
  cases is_proper with
  | single token choice =>
      have kinds : ∀ kind : Kind, kind ∈ KindSet.comparisonOperators ∨ kind = .everKw ∨
          kind = .containsKw → mayPass afterName afterWord kind = true := by
        decide
      exact .single (kinds _ choice)
  | containsWords contains words contains_kind words_kind =>
      have contains_passes : Passes afterName afterWord [contains] := .of_kind contains_kind rfl
      exact contains_passes.append (.of_kind words_kind rfl)
  | inGroup word group word_kind group_kind =>
      have word_passes : Passes afterName afterWord [word] := .of_kind word_kind rfl
      exact word_passes.append (.of_kind group_kind rfl)

theorem IsOperator.passes {tree : Tree} (is_operator : IsOperator tree) :
    Passes afterName afterWord tree.tokens := by
  cases is_operator with
  | operator negation proper is_negation is_proper =>
      simpa using (is_negation.passes (by decide)).append is_proper.passes

theorem IsValueList.passes {tree : Tree} (is_list : IsValueList tree) :
    Passes afterWord afterName tree.tokens := by
  refine IsChain.passes is_list (by decide) ?_
  rintro trees ⟨value, rfl, is_value⟩
  simpa using is_value.passes

/-! ## Conditions -/

theorem Passes.between {opened closed : Token} {inner : List Token}
    (opened_kind : opened.kind = .leftParen) (inner_passes : Passes afterOpener afterName inner)
    (closed_kind : closed.kind = .rightParen) :
    Passes afterName afterWord (opened :: (inner ++ [closed])) := by
  have opened_passes : Passes afterName afterOpener [opened] := .of_kind opened_kind rfl
  exact opened_passes.append (inner_passes.append (.of_kind closed_kind rfl))

theorem IsComparison.passes {trees : List Tree} (is_comparison : IsComparison trees) :
    Passes afterName afterName (Tree.tokensAll trees) := by
  cases is_comparison with
  | compare operator value is_operator is_value =>
      simpa using is_operator.passes.append is_value.passes
  | member negation word opened values closed is_negation word_kind opened_kind is_values
      closed_kind =>
      have word_passes : Passes afterName afterName [word] := .of_kind word_kind rfl
      simpa using (is_negation.passes (by decide)).append
        (word_passes.append ((Passes.between opened_kind (is_values.passes.begin mem_afterOpener)
          closed_kind).end mem_afterWord))

theorem IsOptionalSide.passes {form : Dialect} {trees : List Tree}
    (is_side : IsOptionalSide form trees) :
    Passes afterOpener afterWord (Tree.tokensAll trees) := by
  cases is_side with
  | absent => exact .nil mem_afterOpener
  | present side _ is_side =>
      cases is_side with
      | source word dot word_kind dot_kind | target word dot word_kind dot_kind =>
          have word_passes : Passes afterOpener (.single .dot) [word] := .of_kind word_kind rfl
          exact word_passes.append (.of_kind dot_kind rfl)

mutual

theorem IsCondition.passes {form : Dialect} {tree : Tree} :
    IsCondition form tree → Passes afterOpener afterName tree.tokens
  | .nested opened inner closed opened_kind is_expression closed_kind => by
      simpa using (Passes.between opened_kind is_expression.passes closed_kind).mono.begin
        mem_afterOpener
  | .leaf side field comparison is_side is_field is_comparison => by
      simpa using is_side.passes.append (is_field.passes.append is_comparison.passes)

theorem IsExpression.passes {form : Dialect} {tree : Tree} :
    IsExpression form tree → Passes afterOpener afterName tree.tokens
  | .last modifier condition is_modifier is_condition => by
      simpa using (is_modifier.passes (by decide)).append is_condition.passes
  | .more modifier condition connective rest is_modifier is_condition connective_mem
      is_expression => by
      have connective_passes : Passes afterName afterOpener [connective] :=
        .of_mem (by decide) connective_mem
      simpa using (is_modifier.passes (by decide)).append
        (is_condition.passes.append (connective_passes.append is_expression.passes))

end

/-! ## Queries -/

theorem IsFieldList.passes {tree : Tree} (is_list : IsFieldList tree) :
    Passes afterWord afterName tree.tokens := by
  refine IsChain.passes is_list (by decide) ?_
  rintro trees ⟨field, rfl, is_field⟩
  simpa using is_field.passes

theorem IsOrderList.passes {form : Dialect} {tree : Tree} (is_list : IsOrderList form tree) :
    Passes afterOpener afterName tree.tokens := by
  refine IsChain.passes is_list (by decide) ?_
  rintro trees ⟨side, field, direction, is_side, is_field, is_direction⟩
  simpa using is_side.passes.append (is_field.passes.append (is_direction.passes (by decide)))

theorem IsClause.passes {word : Kind} {first : KindSet} {IsBody : Tree → Prop} {trees : List Tree}
    (is_clause : IsClause word IsBody trees) (word_passes : mayPass afterName first word = true)
    (body_passes : ∀ tree, IsBody tree → Passes first afterName tree.tokens) :
    Passes afterName afterName (Tree.tokensAll trees) := by
  cases is_clause with
  | absent => exact .nil fun _ mem => mem
  | present token body token_kind is_body =>
      simpa using (Passes.of_kind token_kind word_passes).append (body_passes body is_body)

theorem IsMode.passes {kind : Kind} {trees : List Tree} (is_mode : IsMode kind trees) :
    Passes afterName afterWord (Tree.tokensAll trees) := by
  cases is_mode with
  | oneHop word mem => exact .of_mem (by decide +kernel) mem
  | recursive word word_kind => exact .of_kind word_kind rfl
  | matching word comma matching word_kind comma_kind matching_kind =>
      have word_passes : Passes afterName afterWord [word] := .of_kind word_kind rfl
      have comma_passes : Passes afterWord afterWord [comma] := .of_kind comma_kind rfl
      exact word_passes.append (comma_passes.append (.of_kind matching_kind rfl))

theorem IsModeClause.passes {kind : Kind} {trees : List Tree}
    (is_clause : IsModeClause kind trees) : Passes afterName afterName (Tree.tokensAll trees) := by
  cases is_clause with
  | absent => exact .nil fun _ mem => mem
  | present kind word opened inside closed word_kind opened_kind is_mode closed_kind =>
      have word_passes : Passes afterName afterName [word] := .of_kind word_kind rfl
      simpa using word_passes.append
        ((Passes.between opened_kind (is_mode.passes.mono.begin mem_afterOpener) closed_kind).end
          mem_afterWord)

theorem passes_dateClause {trees : List Tree} (is_date : IsClause .asofKw IsDate trees) :
    Passes afterName afterName (Tree.tokensAll trees) :=
  is_date.passes (by decide : mayPass afterName afterWord .asofKw = true)
    fun _ is_date => is_date.passes.mono

theorem IsLinkClauses.passes {kind : Kind} {trees : List Tree}
    (is_clauses : IsLinkClauses kind trees) :
    Passes afterName afterName (Tree.tokensAll trees) := by
  cases is_clauses with
  | dateFirst date mode is_date is_mode =>
      simpa using (passes_dateClause is_date).append is_mode.passes
  | modeFirst mode date is_mode is_date =>
      simpa using is_mode.passes.append (passes_dateClause is_date)

theorem IsHead.passes {source : Kind} {trees : List Tree} (is_head : IsHead source trees)
    (source_passes : mayPass afterWord afterName source = true) :
    Passes afterWord afterName (Tree.tokensAll trees) := by
  cases is_head with
  | head select fields origin place select_kind is_fields origin_kind place_kind =>
      have select_passes : Passes afterWord afterWord [select] := .of_kind select_kind rfl
      have origin_passes : Passes afterName afterWord [origin] := .of_kind origin_kind rfl
      simpa using select_passes.append (is_fields.passes.append
        (origin_passes.append (.of_kind place_kind source_passes)))

theorem IsFilter.passes {form : Dialect} {trees : List Tree} (is_filter : IsFilter form trees) :
    Passes afterName afterName (Tree.tokensAll trees) := by
  cases is_filter with
  | filter conditions order is_conditions is_order =>
      simpa using (is_conditions.passes rfl fun _ => IsExpression.passes).append
        (is_order.passes rfl fun _ => IsOrderList.passes)

theorem IsQuery.passes {tree : Tree} (is_query : IsQuery tree) :
    Passes afterWord afterName tree.tokens := by
  cases is_query with
  | flat head filter date is_head is_filter is_date =>
      simpa using (is_head.passes rfl).append
        (is_filter.passes.append (passes_dateClause is_date))
  | link kind head filter clauses is_head is_filter is_clauses =>
      simpa using (is_head.passes rfl).append (is_filter.passes.append is_clauses.passes)

/-- In a query each token may stand behind the one before it. -/
theorem IsQuery.joins {tree : Tree} (is_query : IsQuery tree) : Joins afterWord tree.tokens := by
  have joins := is_query.passes [] ⟨List.isChain_nil, nofun, nofun⟩
  rwa [List.append_nil] at joins

/-- No name stands before what may not stand behind one. -/
theorem MayPrecede.mayFollow {first second : Token} (precedes : MayPrecede first second) :
    first.MayFollow second := by
  have names : ∀ kind, kind ∈ afterName → kind ∉ notBehindName := by decide
  intro named
  rw [MayPrecede, named] at precedes
  exact names _ precedes

/-- A side of a link stands only where a condition or a sort key begins, and before a dot. -/
theorem MayPrecede.borders {first second : Token} (precedes : MayPrecede first second) :
    first.Borders second := by
  have openers : ∀ side ∈ KindSet.linkSide, ∀ kind, side ∈ followers kind → kind ∈ itemOpeners := by
    decide +kernel
  have dots : ∀ side ∈ KindSet.linkSide, ∀ kind, kind ∈ followers side → kind = .dot := by
    decide +kernel
  exact ⟨fun is_side => openers _ is_side _ precedes, fun is_side => dots _ is_side _ precedes⟩

end Grammar
end WorkItemQuery
