import WorkItemQuery.Proofs.Grammar.Contract
import WorkItemQuery.Proofs.Grammar.Nodes
import WorkItemQuery.Proofs.Tree.Words

/-!
# Rules for tokens, nodes and lists

The contracts of the productions that all others are built from: one token, a closing parenthesis, a
node over children, and a list of items with separators between them.
-/

namespace WorkItemQuery
namespace Grammar

/-! ## Single tokens -/

theorem eatOneOf_cons {kinds : KindSet} {token : Token} (mem : token.kind ∈ kinds)
    (rest : List Token) : eatOneOf kinds (token :: rest) = .ok (some token, rest) :=
  if_pos mem

theorem eatOneOf_of_notMem {kinds : KindSet} {tokens : List Token}
    (notMem : nextKind tokens ∉ kinds) : eatOneOf kinds tokens = .ok (none, tokens) := by
  cases tokens with
  | nil => rfl
  | cons token rest => exact if_neg notMem

theorem eat_cons {kind : Kind} {token : Token} (token_kind : token.kind = kind)
    (rest : List Token) : eat kind (token :: rest) = .ok (some token, rest) :=
  eatOneOf_cons (KindSet.mem_single.2 token_kind) rest

theorem eat_of_ne {kind : Kind} {tokens : List Token} (ne : nextKind tokens ≠ kind) :
    eat kind tokens = .ok (none, tokens) :=
  eatOneOf_of_notMem fun mem => ne (KindSet.mem_single.1 mem)

theorem expect_cons {ctx : Context} {kind : Kind} {problem : Problem} {token : Token}
    (token_kind : token.kind = kind) (rest : List Token) :
    expect ctx kind problem (token :: rest) = .ok (token, rest) := by
  rw [expect, bind_of_ok (eat_cons token_kind rest)]
  rfl

theorem expectToken_cons {ctx : Context} {kind : Kind} {token : Token}
    (token_kind : token.kind = kind) (rest : List Token) :
    expectToken ctx kind (token :: rest) = .ok (token, rest) := by
  rw [expectToken, bind_of_ok (eat_cons token_kind rest)]
  rfl

theorem closeParen_cons {ctx : Context} {opened : Span} {token : Token}
    (token_kind : token.kind = .rightParen) (rest : List Token) :
    closeParen ctx opened (token :: rest) = .ok (token, rest) := by
  rw [closeParen, bind_of_ok (eat_cons token_kind rest)]
  rfl

theorem optional_cons {kinds : KindSet} {token : Token} (mem : token.kind ∈ kinds)
    (rest : List Token) : optional kinds (token :: rest) = .ok ([.leaf token], rest) := by
  rw [optional, bind_of_ok (eatOneOf_cons mem rest)]
  rfl

theorem optional_of_notMem {kinds : KindSet} {tokens : List Token}
    (notMem : nextKind tokens ∉ kinds) : optional kinds tokens = .ok ([], tokens) := by
  rw [optional, bind_of_ok (eatOneOf_of_notMem notMem)]
  rfl

/-- An optional word never stops a reading. -/
theorem exists_optional_eq (kinds : KindSet) (tokens : List Token) :
    ∃ trees rest, optional kinds tokens = .ok (trees, rest) := by
  cases tokens with
  | nil => exact ⟨[], [], rfl⟩
  | cons token rest =>
      by_cases mem : token.kind ∈ kinds
      · exact ⟨_, _, optional_cons mem rest⟩
      · exact ⟨_, _, optional_of_notMem mem⟩

theorem liftM_node {kind : Kind} {children : List Tree}
    (builds : node kind children = .ok (.node kind children)) (rest : List Token) :
    (liftM (node kind children) : Production Tree) rest = .ok (.node kind children, rest) := by
  rw [builds]
  rfl

theorem liftM_chain_cons_cons (kind : Kind) (children next : List Tree)
    (rest : List (List Tree)) :
    (liftM (chain kind (children :: next :: rest)) : Production Tree) =
      (liftM (chain kind (next :: rest)) >>= fun tail =>
        liftM (node kind (children ++ [tail]))) := by
  rw [chain_cons_cons]
  cases chain kind (next :: rest) <;> rfl

variable {α β : Type} {ctx : Context} {bound : Nat} {before : List Token}

namespace Reads

/-- The kind of the next token may be looked at. -/
theorem peek :
    Reads ctx bound before peek (fun _ => Grammar.peek) fun _ total => total = before := by
  intro tokens _
  refine .taken (nextKind tokens) [] tokens rfl (List.append_nil before) fun _ rest' same => ?_
  simp [Grammar.peek, same]

/-- A token that may be taken is taken whenever it comes next. -/
theorem eatOneOf {kinds : KindSet} {next : Option Token → Production β}
    {next' : Nat → Option Token → Production β} {word : β → List Token → Prop}
    (not_end : .endMark ∉ kinds)
    (hit : ∀ token, token.kind ∈ kinds →
      Reads ctx (bound - 1) (before ++ [token]) (next (some token))
        (fun extra => next' extra (some token)) word)
    (miss : Reads ctx bound before (next none) (fun extra => next' extra none) word) :
    Reads ctx bound before (Grammar.eatOneOf kinds >>= next)
      (fun extra => Grammar.eatOneOf kinds >>= next' extra) word := by
  intro tokens short
  by_cases mem : nextKind tokens ∈ kinds
  · obtain ⟨token, rest, rfl, token_kind⟩ := exists_cons_of_nextKind fun at_end =>
      not_end (at_end ▸ mem)
    rw [nextKind_cons] at mem
    rw [bind_of_ok (eatOneOf_cons mem rest)]
    have outcome := hit token mem rest (by simp at short; omega)
    exact outcome.append_left fun extra rest' _ _ => bind_of_ok (eatOneOf_cons mem rest')
  · rw [bind_of_ok (eatOneOf_of_notMem mem)]
    exact (miss tokens short).congr fun extra rest' same =>
      bind_of_ok (eatOneOf_of_notMem (same ▸ mem))

theorem eat {kind : Kind} {next : Option Token → Production β}
    {next' : Nat → Option Token → Production β} {word : β → List Token → Prop}
    (not_end : kind ≠ .endMark)
    (hit : ∀ token, token.kind = kind →
      Reads ctx (bound - 1) (before ++ [token]) (next (some token))
        (fun extra => next' extra (some token)) word)
    (miss : Reads ctx bound before (next none) (fun extra => next' extra none) word) :
    Reads ctx bound before (eat kind >>= next) (fun extra => Grammar.eat kind >>= next' extra)
      word :=
  eatOneOf (fun mem => not_end (KindSet.mem_single.1 mem).symm)
    (fun token mem => hit token (KindSet.mem_single.1 mem)) miss

end Reads

/-- A token of a kind, with no text and no place of its own. -/
def tokenOf (kind : Kind) : Token := ⟨⟨kind, 1, 1, 0, ""⟩, []⟩

@[simp]
theorem kind_tokenOf (kind : Kind) : (tokenOf kind).kind = kind := rfl

/-- The word of one token of a kind. -/
def IsToken (kind : Kind) (token : Token) (taken : List Token) : Prop :=
  taken = [token] ∧ token.kind = kind

theorem reads_expect (closed : ctx.Closed) {kind : Kind} (not_end : kind ≠ .endMark)
    (problem : Problem) :
    Reads ctx bound [] (expect ctx kind problem) (fun _ => expect ctx kind problem)
      (IsToken kind) := by
  refine Reads.eat not_end ?_ ?_
  · exact fun token token_kind => Reads.pure ⟨rfl, token_kind⟩
  · exact Reads.halt closed ⟨tokenOf kind, [tokenOf kind], rfl, rfl⟩

theorem reads_expectToken (closed : ctx.Closed) {kind : Kind} (not_end : kind ≠ .endMark) :
    Reads ctx bound [] (expectToken ctx kind) (fun _ => expectToken ctx kind) (IsToken kind) := by
  refine Reads.eat not_end ?_ ?_
  · exact fun token token_kind => Reads.pure ⟨rfl, token_kind⟩
  · exact Reads.haltWith (fun rest => closed.stops_stopAt [] rest ..)
      ⟨tokenOf kind, [tokenOf kind], rfl, rfl⟩

theorem reads_optional {kinds : KindSet} (not_end : .endMark ∉ kinds) :
    Reads ctx bound [] (optional kinds) (fun _ => optional kinds) fun trees taken =>
      IsOptional kinds trees ∧ Tree.tokensAll trees = taken := by
  refine Reads.eatOneOf not_end ?_ ?_
  · exact fun token mem => Reads.pure ⟨.present token mem, rfl⟩
  · exact Reads.pure ⟨.absent, rfl⟩

/-- Behind the innermost open parenthesis stands the one that closes it. -/
theorem reads_closeParen (closed : ctx.Closed) {opened : Token}
    (innermost : IsInnermost opened before) :
    Reads ctx bound before (closeParen ctx opened.span) (fun _ => closeParen ctx opened.span)
      fun token total => total = before ++ [token] ∧ token.kind = .rightParen := by
  refine Reads.eat (by decide) ?_ ?_
  · exact fun token token_kind => Reads.pure ⟨rfl, token_kind⟩
  · exact Reads.haltWith (fun rest => closed.stops_stopUnclosed innermost rest)
      ⟨tokenOf .rightParen, [tokenOf .rightParen], rfl, rfl⟩

/-! ## Nodes -/

theorem Reads.node {kind : Kind} {children : List Tree} {word : Tree → List Token → Prop}
    (builds : Grammar.node kind children = .ok (.node kind children))
    (holds : word (.node kind children) before) :
    Reads ctx bound before (liftM (Grammar.node kind children))
      (fun _ => liftM (Grammar.node kind children)) word := by
  rw [builds]
  exact Reads.pure holds

theorem Reads.node_bind {kind : Kind} {children : List Tree} {next : Tree → Production β}
    {next' : Nat → Tree → Production β} {word : β → List Token → Prop}
    (builds : Grammar.node kind children = .ok (.node kind children))
    (reads_next :
      Reads ctx bound before (next (.node kind children))
        (fun extra => next' extra (.node kind children)) word) :
    Reads ctx bound before (liftM (Grammar.node kind children) >>= next)
      (fun extra => liftM (Grammar.node kind children) >>= next' extra) word := by
  rw [builds]
  exact reads_next

end Grammar
end WorkItemQuery
