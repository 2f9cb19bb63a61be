import WorkItemQuery.Grammar.Productions

/-!
# Where a reading stops

A reading that stops has taken some tokens and stands in front of the others.  Its report is about
the next token; at the end of the query it is about the end, or about the innermost parenthesis that
is still open.
-/

namespace WorkItemQuery
namespace Grammar

/-! ## The next token -/

@[simp]
theorem nextKind_nil : nextKind [] = .endMark := rfl

@[simp]
theorem nextKind_cons (token : Token) (rest : List Token) :
    nextKind (token :: rest) = token.kind := rfl

/-- What follows a word matters to the next kind only if the word is empty. -/
theorem nextKind_append_congr (word : List Token) {rest rest' : List Token}
    (same : nextKind rest' = nextKind rest) :
    nextKind (word ++ rest') = nextKind (word ++ rest) := by
  cases word with
  | nil => exact same
  | cons token word => rfl

theorem exists_cons_of_nextKind {tokens : List Token} (not_end : nextKind tokens ≠ .endMark) :
    ∃ token rest, tokens = token :: rest ∧ token.kind = nextKind tokens := by
  cases tokens with
  | nil => exact absurd rfl not_end
  | cons token rest => exact ⟨token, rest, rfl, rfl⟩

theorem exists_cons_of_kind {tokens : List Token} {kind : Kind} (kind_eq : nextKind tokens = kind)
    (not_end : kind ≠ .endMark) : ∃ token rest, tokens = token :: rest ∧ token.kind = kind := by
  obtain ⟨token, rest, tokens_eq, token_kind⟩ :=
    exists_cons_of_nextKind fun at_end => not_end (kind_eq.symm.trans at_end)
  exact ⟨token, rest, tokens_eq, token_kind.trans kind_eq⟩

/-! ## Where a reading stops -/

/-- A token of the language that is no parenthesis. -/
def isPlain (kind : Kind) : Bool :=
  kind.isToken && !kind.isLexicalError && kind != .leftParen && kind != .rightParen

/-- Tokens of some plain kinds, and parentheses that have their partners. -/
inductive Balanced (plain : Kind → Bool) : List Token → Prop where
  | nil : Balanced plain []
  | plain (token : Token) (rest : List Token) : plain token.kind = true → Balanced plain rest →
      Balanced plain (token :: rest)
  | group (opened : Token) (inner : List Token) (closed : Token) (rest : List Token) :
      opened.kind = .leftParen → Balanced plain inner → closed.kind = .rightParen →
      Balanced plain rest → Balanced plain (opened :: (inner ++ closed :: rest))

theorem Balanced.widen {plain wider : Kind → Bool} {tokens : List Token}
    (balanced : Balanced plain tokens) (le : ∀ kind, plain kind = true → wider kind = true) :
    Balanced wider tokens := by
  induction balanced with
  | nil => exact .nil
  | plain token rest is_plain _ ih => exact .plain token rest (le _ is_plain) ih
  | group opened inner closed rest opened_kind _ closed_kind _ inner_ih rest_ih =>
      exact .group opened inner closed rest opened_kind inner_ih closed_kind rest_ih

/-- The token is the innermost parenthesis that is still open. -/
def IsInnermost (opened : Token) (taken : List Token) : Prop :=
  ∃ front back, taken = front ++ opened :: back ∧ opened.kind = .leftParen ∧ Balanced isPlain back

theorem isInnermost_of_balanced {opened : Token} {back : List Token}
    (opened_kind : opened.kind = .leftParen) (balanced : Balanced isPlain back) (front : List Token) :
    IsInnermost opened (front ++ [opened] ++ back) :=
  ⟨front, back, by simp, opened_kind, balanced⟩

theorem IsInnermost.append_left {opened : Token} {taken : List Token}
    (innermost : IsInnermost opened taken) (before : List Token) :
    IsInnermost opened (before ++ taken) := by
  obtain ⟨front, back, taken_eq, opened_kind, balanced⟩ := innermost
  exact ⟨before ++ front, back, by rw [taken_eq, List.append_assoc], opened_kind, balanced⟩

/-- The reason for which a reading stops that has taken some tokens and has others left. -/
inductive Stops (ctx : Context) (taken rest : List Token) : Stop → Prop where
  | silent : (nextKind rest).isLexicalError = true → Stops ctx taken rest .silent
  | misfit (token : Token) (behind : List Token) (diagnostic : Diagnostic) :
      rest = token :: behind → token.kind.isLexicalError = false → token.kind ≠ .endMark →
      diagnostic.span = token.span → Stops ctx taken rest (.report diagnostic)
  | ended (diagnostic : Diagnostic) : nextKind rest = .endMark →
      diagnostic.problem = .unexpectedEof → diagnostic.span = .empty ctx.endOffset →
      Stops ctx taken rest (.report diagnostic)
  | unclosed (opened : Token) (diagnostic : Diagnostic) : nextKind rest = .endMark →
      IsInnermost opened taken → diagnostic.problem = .unclosedParen →
      diagnostic.span.start = opened.offset → diagnostic.span.stop = ctx.endOffset →
      Stops ctx taken rest (.report diagnostic)
  | inverted (opened : Token) : nextKind rest = .endMark → IsInnermost opened taken →
      ctx.endOffset < opened.offset → Stops ctx taken rest (.fault .invertedSpan)

theorem Stops.append_left {ctx : Context} {taken rest : List Token} {stop : Stop}
    (stops : Stops ctx taken rest stop) (before : List Token) :
    Stops ctx (before ++ taken) rest stop := by
  cases stops with
  | silent error => exact .silent error
  | misfit token behind diagnostic rest_eq no_error not_end span_eq =>
      exact .misfit token behind diagnostic rest_eq no_error not_end span_eq
  | ended diagnostic at_end problem_eq span_eq => exact .ended diagnostic at_end problem_eq span_eq
  | unclosed opened diagnostic at_end innermost problem_eq start_eq stop_eq =>
      exact .unclosed opened diagnostic at_end (innermost.append_left before) problem_eq start_eq
        stop_eq
  | inverted opened at_end innermost behind =>
      exact .inverted opened at_end (innermost.append_left before) behind

theorem Stops.ne_stalled {ctx : Context} {taken rest : List Token} {stop : Stop}
    (stops : Stops ctx taken rest stop) : stop ≠ .fault .stalled := by
  cases stops <;> nofun

/-- The end mark that stands for the end of the tokens is one. -/
def Context.Closed (ctx : Context) : Prop := ctx.final.kind = .endMark

theorem Context.Closed.current_kind {ctx : Context} (closed : ctx.Closed) (tokens : List Token) :
    (ctx.current tokens).kind = nextKind tokens := by
  cases tokens with
  | nil => exact closed
  | cons token rest => rfl

theorem Context.current_of_cons (ctx : Context) (token : Token) (rest : List Token) :
    ctx.current (token :: rest) = token := rfl

theorem Context.Closed.stops_stopAt {ctx : Context} (closed : ctx.Closed)
    (taken rest : List Token) (problem : Problem) (expected detail : String) :
    Stops ctx taken rest (ctx.stopAt rest problem expected detail) := by
  simp only [Context.stopAt, closed.current_kind]
  by_cases error : (nextKind rest).isLexicalError = true
  · rw [if_pos error]
    exact .silent error
  rw [if_neg error]
  by_cases at_end : nextKind rest = .endMark
  · rw [if_pos at_end]
    exact .ended _ at_end rfl rfl
  rw [if_neg at_end]
  obtain ⟨token, behind, rfl, token_kind⟩ := exists_cons_of_nextKind at_end
  exact .misfit token behind _ rfl (by simpa using error) at_end rfl

theorem Context.Closed.stops_stopUnclosed {ctx : Context} (closed : ctx.Closed) {opened : Token}
    {taken : List Token} (innermost : IsInnermost opened taken) (rest : List Token) :
    Stops ctx taken rest (ctx.stopUnclosed opened.span rest) := by
  simp only [Context.stopUnclosed, closed.current_kind]
  by_cases error : (nextKind rest).isLexicalError = true
  · rw [if_pos error]
    exact .silent error
  rw [if_neg error]
  by_cases at_end : nextKind rest = .endMark
  · rw [if_pos at_end]
    by_cases ordered : opened.span.start ≤ ctx.endOffset
    · rw [Span.between?, dif_pos ordered]
      exact .unclosed opened _ at_end innermost rfl rfl rfl
    · rw [Span.between?, dif_neg ordered]
      exact .inverted opened at_end innermost (Nat.lt_of_not_le ordered)
  rw [if_neg at_end]
  obtain ⟨token, behind, rfl, token_kind⟩ := exists_cons_of_nextKind at_end
  exact .misfit token behind _ rfl (by simpa using error) at_end rfl

end Grammar
end WorkItemQuery
