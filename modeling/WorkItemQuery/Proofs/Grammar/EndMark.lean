import WorkItemQuery.Proofs.Grammar.Lossless
import WorkItemQuery.Proofs.Grammar.Parallel

/-!
# The end mark

A token list that has no end mark gets one.  What is read, and what is reported, depends on the end
mark only through the token that it remembers: wherever the mark stands, the answer is the same.
-/

namespace WorkItemQuery

/-! ## Tokens -/

/-- The second token is the first, an end mark, at another place. -/
structure Token.IsMoved (mark mark' : Token) : Prop where
  /-- It is an end mark. -/
  kind_eq : mark.kind = .endMark
  /-- All but its place is the same. -/
  place_only : ∃ line column offset,
    mark' = { mark with line := line, column := column, offset := offset }

namespace Token.IsMoved

variable {mark mark' : Token} (moved : mark.IsMoved mark')

include moved

theorem kind_eq' : mark'.kind = .endMark := by
  obtain ⟨kind_eq, line, column, offset, rfl⟩ := moved
  exact kind_eq

theorem prev_eq : mark'.prev? = mark.prev? := by
  obtain ⟨-, line, column, offset, rfl⟩ := moved
  rfl

end Token.IsMoved

theorem Token.isMoved_endMark (line column offset line' column' offset' : Nat)
    (prev : Option Token) :
    (endMark line column offset prev).IsMoved (endMark line' column' offset' prev) :=
  ⟨rfl, line', column', offset', rfl⟩

namespace Grammar

/-- The tokens are the same, or end marks at two places. -/
def SameOrMoved (token token' : Token) : Prop := token' = token ∨ token.IsMoved token'

namespace SameOrMoved

variable {token token' : Token} (same : SameOrMoved token token')

include same

theorem kind_eq : token'.kind = token.kind := by
  obtain rfl | moved := same
  · rfl
  · rw [moved.kind_eq, moved.kind_eq']

theorem eq_of_ne (not_end : token.kind ≠ .endMark) : token' = token :=
  same.resolve_right fun moved => not_end moved.kind_eq

theorem shown_eq : token'.shown = token.shown := by
  obtain rfl | moved := same
  · rfl
  · rw [Token.shown, Token.shown, moved.kind_eq, moved.kind_eq', if_pos (.inl rfl),
      if_pos (.inl rfl)]

end SameOrMoved

/-- The tokens of two lists are the same, but for the places of end marks. -/
abbrev MarksMoved (tokens tokens' : List Token) : Prop := List.Forall₂ SameOrMoved tokens tokens'

theorem marksMoved_refl (tokens : List Token) : MarksMoved tokens tokens :=
  List.forall₂_same.2 fun _ _ => .inl rfl

theorem MarksMoved.eq_of_no_end {tokens tokens' : List Token} (same : MarksMoved tokens tokens')
    (no_end : ∀ token ∈ tokens, token.kind ≠ .endMark) : tokens' = tokens := by
  induction same with
  | nil => rfl
  | cons token_same _ ih =>
      obtain ⟨not_end, rest_no_end⟩ := List.forall_mem_cons.1 no_end
      rw [token_same.eq_of_ne not_end, ih rest_no_end]

/-! ## Readings -/

section

variable {final final' : Token} {rest rest' : List Token}

theorem endOffset_of_isMoved (moved : final.IsMoved final') :
    Context.endOffset ⟨final'⟩ = Context.endOffset ⟨final⟩ := by
  rw [Context.endOffset, Context.endOffset]
  dsimp only
  rw [moved.prev_eq]

theorem MarksMoved.current (same : MarksMoved rest rest') (moved : final.IsMoved final') :
    SameOrMoved (Context.current ⟨final⟩ rest) (Context.current ⟨final'⟩ rest') := by
  cases same with
  | nil => exact .inr moved
  | cons token_same => exact token_same

/-- At an end mark the report stands behind the token that it remembers. -/
theorem MarksMoved.stopAt_eq (same : MarksMoved rest rest') (moved : final.IsMoved final')
    (problem : Problem) (expected detail : String) :
    Context.stopAt ⟨final'⟩ rest' problem expected detail =
      Context.stopAt ⟨final⟩ rest problem expected detail := by
  have current_same := same.current moved
  rw [Context.stopAt, Context.stopAt, current_same.kind_eq, endOffset_of_isMoved moved]
  by_cases at_end : (Context.current ⟨final⟩ rest).kind = .endMark
  · simp only [at_end, if_true]
  · rw [current_same.eq_of_ne at_end]

theorem MarksMoved.stopUnclosed_eq (same : MarksMoved rest rest') (moved : final.IsMoved final')
    (opened : Span) :
    Context.stopUnclosed ⟨final'⟩ opened rest' = Context.stopUnclosed ⟨final⟩ opened rest := by
  have current_same := same.current moved
  rw [Context.stopUnclosed, Context.stopUnclosed, current_same.kind_eq,
    endOffset_of_isMoved moved]
  by_cases at_end : (Context.current ⟨final⟩ rest).kind = .endMark
  · simp only [at_end, if_true]
  · rw [current_same.eq_of_ne at_end]

/-- Readings of token lists that differ in the places of end marks stop alike.  No end mark opens a
parenthesis, and so its place is in no report. -/
def moving (moved : final.IsMoved final') : Agreement where
  token := SameOrMoved
  stop := SameStop
  left := ⟨final⟩
  right := ⟨final'⟩
  kind_eq same := same.kind_eq
  of_fault := SameStop.fault
  of_stop problem same _ := by
    rw [Context.stop, Context.stop, (MarksMoved.current same moved).shown_eq]
    exact MarksMoved.stopAt_eq same moved ..
  of_stopFor kind same := by
    rw [Context.stopFor, Context.stopFor, (MarksMoved.current same moved).shown_eq]
    exact MarksMoved.stopAt_eq same moved ..
  of_stopUnclosed opened_kind opened_same same := by
    rw [opened_same.eq_of_ne fun is_end => nomatch opened_kind.symm.trans is_end]
    exact MarksMoved.stopUnclosed_eq same moved _

/-- At an end mark nothing is behind the query. -/
theorem MarksMoved.trailingReport?_eq (same : MarksMoved rest rest')
    (moved : final.IsMoved final') :
    trailingReport? ⟨final'⟩ rest' = trailingReport? ⟨final⟩ rest := by
  have current_same := same.current moved
  rw [trailingReport?, trailingReport?, current_same.kind_eq]
  by_cases at_end : (Context.current ⟨final⟩ rest).kind = .endMark
  · rw [if_pos (.inl at_end), if_pos (.inl at_end)]
  · rw [current_same.eq_of_ne at_end]
    dsimp only
    rw [moved.prev_eq]

end

/-- The second token list is the first with its end mark at another place. -/
inductive MarkMoved : List Token → List Token → Prop where
  | moved (init : List Token) (mark mark' : Token) : mark.IsMoved mark' →
      mark.prev? = init.getLast? → mark'.prev? = init.getLast? →
      MarkMoved (init ++ [mark]) (init ++ [mark'])

/-- Both token lists have no answer for the same reason, or the same tree is read and the same is
reported, and the tokens differ in the place of the end mark only. -/
inductive SameButMark : Except Fault Reading → Except Fault Reading → Prop where
  | fault (fault : Fault) : SameButMark (.error fault) (.error fault)
  | read (root? : Option Tree) (diagnostics : List Diagnostic) (tokens tokens' : List Token) :
      MarkMoved tokens tokens' →
      SameButMark (.ok ⟨tokens, root?, diagnostics⟩) (.ok ⟨tokens', root?, diagnostics⟩)

section

variable {init : List Token} {final final' : Token}

/-- The answer does not depend on where the end mark stands. -/
theorem parse_moved (moved : final.IsMoved final') (prev_eq : final.prev? = init.getLast?)
    (limit : Option Nat) :
    SameButMark (parse limit (init ++ [final])) (parse limit (init ++ [final'])) := by
  have tokens_moved : MarkMoved (init ++ [final]) (init ++ [final']) :=
    .moved init final final' moved prev_eq (moved.prev_eq.trans prev_eq)
  have same : MarksMoved (init ++ [final]) (init ++ [final']) :=
    List.rel_append (marksMoved_refl init) (.cons (.inr moved) .nil)
  have answers := Agreement.Parallel.query (limit.getD (init ++ [final]).length) _ _
    (show (moving moved).Tokens _ _ from same)
  rw [parse_of_endMark moved.kind_eq, parse_of_endMark moved.kind_eq', ← same.length_eq]
  change (moving moved).Answers _ (query ⟨final⟩ _ _) (query ⟨final'⟩ _ _) at answers
  generalize query_eq : query ⟨final⟩ (limit.getD (init ++ [final]).length) (init ++ [final]) =
    answer, query_eq' : query ⟨final'⟩ (limit.getD (init ++ [final]).length) (init ++ [final']) =
    answer' at answers
  cases answers with
  | taken root root' rest rest' root_same rest_same =>
      obtain ⟨is_query, -, -⟩ :=
        derivation_of_query_ok (show Context.Closed ⟨final⟩ from moved.kind_eq) query_eq
      obtain ⟨is_query', -, -⟩ :=
        derivation_of_query_ok (show Context.Closed ⟨final'⟩ from moved.kind_eq') query_eq'
      -- No token of a query is an end mark, and so both trees are over the same tokens.
      have words_eq := MarksMoved.eq_of_no_end root_same.tokens is_query.kind_ne_endMark
      obtain rfl := is_query.eq_of_tokens_eq is_query' words_eq
      rw [readingOf, readingOf, lexicalReports_concat moved.kind_eq,
        lexicalReports_concat moved.kind_eq', MarksMoved.trailingReport?_eq rest_same moved]
      exact .read _ _ _ _ tokens_moved
  | stopped stop stop' stop_eq =>
      obtain rfl : stop' = stop := stop_eq
      cases stop' with
      | report | silent =>
          rw [readingOf, readingOf, lexicalReports_concat moved.kind_eq,
            lexicalReports_concat moved.kind_eq']
          exact .read _ _ _ _ tokens_moved
      | fault fault => exact .fault fault

/-- Tokens without an end mark get one that remembers the last of them. -/
theorem exists_mark_of_no_end (no_end : ∀ token ∈ init, token.kind ≠ .endMark) :
    ∃ line column offset,
      withEndMark init = init ++ [.endMark line column offset init.getLast?] := by
  rw [withEndMark]
  cases last_eq : init.getLast? with
  | none =>
      rw [List.getLast?_eq_none_iff.1 last_eq]
      exact ⟨1, 1, 0, rfl⟩
  | some last =>
      have not_end := no_end last (List.mem_of_getLast? last_eq)
      exact ⟨last.line, last.endColumn, last.span.stop, if_neg not_end⟩

end

/-- The tokens of a text are read the same way without their end mark: they get one that remembers
the same token, and only its place is another. -/
theorem parse_without_endMark (source : String) (limit : Option Nat) :
    MarkMoved (tokenize source) (withEndMark (tokenize source).dropLast) ∧
      SameButMark (parse limit (tokenize source)) (parse limit (tokenize source).dropLast) := by
  obtain ⟨init, final, tokens_eq, is_list, -⟩ := exists_tokenize_eq source
  obtain ⟨line', column', offset', marked_eq⟩ := exists_mark_of_no_end is_list.no_end
  have moved : final.IsMoved (.endMark line' column' offset' init.getLast?) := by
    obtain ⟨line, column, offset, rfl⟩ := exists_endMark_of_tokenize tokens_eq
    exact Token.isMoved_endMark ..
  have tokens_moved : MarkMoved (init ++ [final]) (withEndMark init) := by
    rw [marked_eq]
    exact .moved _ _ _ moved is_list.prev_eq (Token.prev?_endMark ..)
  rw [← parse_withEndMark limit (tokenize source).dropLast, tokens_eq, List.dropLast_concat]
  refine ⟨tokens_moved, ?_⟩
  rw [marked_eq]
  exact parse_moved moved is_list.prev_eq limit

end Grammar
end WorkItemQuery
