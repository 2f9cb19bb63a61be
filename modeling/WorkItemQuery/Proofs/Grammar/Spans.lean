import WorkItemQuery.Proofs.Grammar.Lossless
import WorkItemQuery.Proofs.Grammar.Parallel
import WorkItemQuery.Proofs.Tree.Order

/-!
# The spans of reports

A report on a token list stands at a token, at the end of the last one, or on the stretch from one
token to another.  So what holds of these spans holds of all reports, if it holds of the stretches
between spans of which it holds.  One such property is that offsets fit into 32 bits.
-/

namespace WorkItemQuery

/-- The property holds of the stretches between spans of which it holds. -/
structure Span.IsKept (holds : Span → Prop) : Prop where
  /-- It holds of the least span around two. -/
  cover : ∀ {left right}, holds left → holds right → holds (left.cover right)
  /-- It holds of the span from the start of one to an offset. -/
  between : ∀ {left stop span}, holds left → holds (.empty stop) →
    Span.between? left.start stop = some span → holds span

namespace Diagnostic

variable {holds : Span → Prop} {span : Span} {diagnostic : Diagnostic}

/-- The property holds of the spans of the diagnostic and of its notes. -/
structure AllSpans (holds : Span → Prop) (diagnostic : Diagnostic) : Prop where
  /-- The place of the problem. -/
  span : holds diagnostic.span
  /-- The places of the notes. -/
  notes : ∀ note ∈ diagnostic.related, holds note.span

theorem AllSpans.of_detail (span_holds : holds span) (problem : Problem) (detail : String) :
    ((of problem span).withDetail detail).AllSpans holds :=
  ⟨span_holds, List.forall_mem_nil _⟩

theorem AllSpans.withNote (all_hold : diagnostic.AllSpans holds) (message : String)
    (note_holds : holds span) : (diagnostic.withNote message span).AllSpans holds where
  span := all_hold.span
  notes := List.forall_mem_append.2 ⟨all_hold.notes, List.forall_mem_singleton.2 note_holds⟩

end Diagnostic

namespace Grammar

variable {holds : Span → Prop}

/-! ## Reading -/

/-- The property holds of the spans at the end of the tokens. -/
structure Context.AllSpans (holds : Span → Prop) (ctx : Context) : Prop where
  /-- The end mark. -/
  final : holds ctx.final.span
  /-- The end of the last token. -/
  stop : holds (.empty ctx.endOffset)
  /-- The last token. -/
  prev : ∀ last, ctx.final.prev? = some last → holds last.span

namespace Context.AllSpans

variable {ctx : Context} {tokens : List Token} {report : Diagnostic}

theorem current (ctx_holds : ctx.AllSpans holds)
    (tokens_hold : ∀ token ∈ tokens, holds token.span) : holds (ctx.current tokens).span := by
  cases tokens with
  | nil => exact ctx_holds.final
  | cons token rest => exact tokens_hold token (.head _)

theorem stopAt (ctx_holds : ctx.AllSpans holds) (tokens_hold : ∀ token ∈ tokens, holds token.span)
    {problem : Problem} {expected detail : String}
    (stop_eq : ctx.stopAt tokens problem expected detail = .report report) :
    report.AllSpans holds := by
  rw [Context.stopAt] at stop_eq
  split at stop_eq
  · cases stop_eq
  · split at stop_eq <;> cases stop_eq
    · exact .of_detail ctx_holds.stop _ _
    · exact .of_detail (ctx_holds.current tokens_hold) _ _

theorem stopUnclosed (kept : Span.IsKept holds) (ctx_holds : ctx.AllSpans holds)
    (tokens_hold : ∀ token ∈ tokens, holds token.span) {opened : Span} (opened_holds : holds opened)
    (stop_eq : ctx.stopUnclosed opened tokens = .report report) : report.AllSpans holds := by
  rw [Context.stopUnclosed] at stop_eq
  split at stop_eq
  · cases stop_eq
  · split at stop_eq
    · split at stop_eq <;> cases stop_eq
      rename_i span between_eq
      have span_holds := kept.between opened_holds ctx_holds.stop between_eq
      exact Diagnostic.AllSpans.withNote ⟨span_holds, List.forall_mem_nil _⟩ _ opened_holds
    · cases stop_eq
      exact (Diagnostic.AllSpans.of_detail (ctx_holds.current tokens_hold) _ _).withNote _
        opened_holds

end Context.AllSpans

/-- A reading beside itself: the property holds of its tokens, and of all that it stops for. -/
def keeping (kept : Span.IsKept holds) {ctx : Context} (ctx_holds : ctx.AllSpans holds) :
    Agreement where
  token token other := holds token.span ∧ token = other
  stop stop _ := ∀ report, stop = .report report → report.AllSpans holds
  left := ctx
  right := ctx
  kind_eq := by
    rintro token _ ⟨-, rfl⟩
    rfl
  of_fault _ := nofun
  of_stop _ same _ _ := ctx_holds.stopAt ((List.forall₂_and_left _ _).1 same).1
  of_stopFor _ same _ := ctx_holds.stopAt ((List.forall₂_and_left _ _).1 same).1
  of_stopUnclosed _ opened_same same _ :=
    ctx_holds.stopUnclosed kept ((List.forall₂_and_left _ _).1 same).1 opened_same.1

theorem allSpans_of_lexicalReport? {token : Token} {report : Diagnostic}
    (token_holds : holds token.span) (report_eq : lexicalReport? token = some report) :
    report.AllSpans holds := by
  rw [lexicalReport?] at report_eq
  split at report_eq <;> cases report_eq <;> exact .of_detail token_holds _ _

theorem allSpans_of_trailingReport? (kept : Span.IsKept holds) {ctx : Context} {tokens : List Token}
    {report : Diagnostic} (ctx_holds : ctx.AllSpans holds)
    (tokens_hold : ∀ token ∈ tokens, holds token.span)
    (report_eq : trailingReport? ctx tokens = some report) : report.AllSpans holds := by
  have token_holds := ctx_holds.current tokens_hold
  rw [trailingReport?] at report_eq
  split at report_eq
  · cases report_eq
  · cases report_eq
    refine .of_detail (kept.cover token_holds ?_) _ _
    split
    · exact token_holds
    · rename_i last last_eq
      exact ctx_holds.prev last last_eq

variable {limit : Option Nat} {reading : Reading}

/-- What holds of the tokens holds of all that is reported on them. -/
theorem allSpans_of_parse (kept : Span.IsKept holds) {init : List Token} {final : Token}
    (final_kind : final.kind = .endMark) (ctx_holds : Context.AllSpans holds ⟨final⟩)
    (tokens_hold : ∀ token ∈ init ++ [final], holds token.span)
    (parse_eq : parse limit (init ++ [final]) = .ok reading) :
    ∀ report ∈ reading.diagnostics, report.AllSpans holds := by
  have lexical_hold : ∀ report ∈ (init ++ [final]).filterMap lexicalReport?,
      report.AllSpans holds := by
    intro report mem
    obtain ⟨token, token_mem, report_eq⟩ := List.mem_filterMap.1 mem
    exact allSpans_of_lexicalReport? (tokens_hold token token_mem) report_eq
  have same : (keeping kept ctx_holds).Tokens (init ++ [final]) (init ++ [final]) :=
    (List.forall₂_and_left _ _).2 ⟨tokens_hold, List.forall₂_same.2 fun _ _ => rfl⟩
  have answers := Agreement.Parallel.query (limit.getD (init ++ [final]).length) _ _ same
  rw [parse_of_endMark final_kind] at parse_eq
  change Agreement.Answers _ _ (query ⟨final⟩ _ _) (query ⟨final⟩ _ _) at answers
  generalize query ⟨final⟩ (limit.getD (init ++ [final]).length) (init ++ [final]) = answer
    at answers parse_eq
  cases answers with
  | taken root _ rest _ _ rest_same =>
      cases parse_eq
      rw [List.forall_mem_append]
      refine ⟨lexical_hold, fun report mem => ?_⟩
      exact allSpans_of_trailingReport? kept ctx_holds ((List.forall₂_and_left _ _).1 rest_same).1
        (Option.mem_toList.1 mem)
  | stopped stop _ stop_holds =>
      cases stop with
      | report report =>
          cases parse_eq
          rw [List.forall_mem_append, List.forall_mem_singleton]
          exact ⟨lexical_hold, stop_holds report rfl⟩
      | silent =>
          cases parse_eq
          exact lexical_hold
      | fault fault => cases parse_eq

end Grammar

/-! ## Offsets of 32 bits -/

theorem Span.fits_isKept : Span.IsKept fun span => span.fits = true where
  cover := by
    intro left right left_fits right_fits
    rw [fits, decide_eq_true_eq] at *
    exact Nat.max_lt.2 ⟨left_fits, right_fits⟩
  between := by
    intro left stop span _ stop_fits between_eq
    rw [between?] at between_eq
    split at between_eq
    · cases between_eq
      exact stop_fits
    · cases between_eq

theorem Diagnostic.AllSpans.fits {diagnostic : Diagnostic}
    (all_fit : diagnostic.AllSpans fun span => span.fits = true) : diagnostic.fits = true :=
  Bool.and_eq_true_iff.2 ⟨all_fit.span, List.all_eq_true.2 all_fit.notes⟩

theorem Token.fits_span {token : Token} (fits : token.fits = true) : token.span.fits = true :=
  (Bool.and_eq_true_iff.1 fits).1

theorem Token.fits_prev {token prev : Token} (fits : token.fits = true)
    (prev_eq : token.prev? = some prev) : prev.span.fits = true := by
  rw [prev?] at prev_eq
  split at prev_eq
  · cases prev_eq
  · rename_i lexeme before before_eq
    cases prev_eq
    refine List.all_eq_true.1 (Bool.and_eq_true_iff.1 fits).2 lexeme ?_
    rw [before_eq]
    exact .head _

/-- An end mark fits with what it remembers. -/
theorem Token.fits_endMark {line column offset : Nat} {prev? : Option Token}
    (offset_lt : offset < Span.bound) (prev_fits : ∀ prev ∈ prev?, prev.fits = true) :
    (endMark line column offset prev?).fits = true := by
  refine Bool.and_eq_true_iff.2 ⟨decide_eq_true offset_lt, ?_⟩
  cases prev? with
  | none => rfl
  | some prev =>
      change (prev.toLexeme :: prev.before).all (·.span.fits) = true
      rw [List.all_cons]
      exact prev_fits prev rfl

theorem Tree.fits_of_tokens {tree : Tree}
    (tokens_fit : ∀ token ∈ tree.tokens, token.span.fits = true) : tree.fits = true := by
  rw [fits, span?, firstToken?_eq, lastToken?_eq]
  cases first_eq : tree.tokens.head? with
  | none => rfl
  | some first =>
      cases last_eq : tree.tokens.getLast? with
      | none => rfl
      | some last =>
          exact Span.fits_isKept.cover (tokens_fit first (List.mem_of_head? first_eq))
            (tokens_fit last (List.mem_of_getLast? last_eq))

namespace Grammar

theorem tokens_of_readingOf {ctx : Context} {tokens : List Token}
    {answer : Except Stop (Tree × List Token)} {reading : Reading}
    (reading_eq : readingOf ctx tokens answer = .ok reading) : reading.tokens = tokens := by
  cases answer with
  | ok =>
      cases reading_eq
      rfl
  | error stop => cases stop <;> cases reading_eq <;> rfl

theorem fits_of_mem_withEndMark {tokens : List Token}
    (tokens_fit : ∀ token ∈ tokens, token.fits = true) :
    ∀ token ∈ withEndMark tokens, token.fits = true := by
  rw [withEndMark]
  split
  · exact List.forall_mem_singleton.2 rfl
  · rename_i last last_eq
    have last_fits := tokens_fit last (List.mem_of_getLast? last_eq)
    split
    · exact tokens_fit
    · refine List.forall_mem_append.2 ⟨tokens_fit, List.forall_mem_singleton.2 ?_⟩
      refine Token.fits_endMark (of_decide_eq_true (Token.fits_span last_fits)) ?_
      rintro _ ⟨⟩
      exact last_fits

theorem Context.fits {final : Token} (final_fits : final.fits = true) :
    Context.AllSpans (fun span => span.fits = true) ⟨final⟩ where
  final := Token.fits_span final_fits
  stop := by
    rw [endOffset]
    split
    · rfl
    · rename_i prev prev_eq
      exact Token.fits_prev final_fits prev_eq
  prev _ prev_eq := Token.fits_prev final_fits prev_eq

/-- The spans of an answer fit into 32 bits if those of the tokens do. -/
theorem fits_of_parse {limit : Option Nat} {tokens : List Token} {reading : Reading}
    (tokens_fit : ∀ token ∈ tokens, token.fits = true)
    (parse_eq : parse limit tokens = .ok reading) : reading.fits = true := by
  have all_fit := fits_of_mem_withEndMark tokens_fit
  obtain ⟨init, final, marked_eq, final_kind⟩ := withEndMark_sealed limit tokens
  dsimp only at marked_eq
  rw [marked_eq] at all_fit
  rw [← parse_withEndMark, marked_eq] at parse_eq
  have final_fits := all_fit final (by simp)
  have spans_fit : ∀ token ∈ init ++ [final], token.span.fits = true :=
    fun token mem => Token.fits_span (all_fit token mem)
  have reports_fit := allSpans_of_parse Span.fits_isKept final_kind (Context.fits final_fits)
    spans_fit parse_eq
  have tokens_eq : reading.tokens = init ++ [final] := by
    rw [parse_of_endMark final_kind] at parse_eq
    exact tokens_of_readingOf parse_eq
  rw [Reading.fits, tokens_eq, List.getLast?_concat, Bool.and_eq_true_iff, Bool.and_eq_true_iff,
    List.all_eq_true]
  refine ⟨⟨final_fits, ?_⟩, fun report mem => (reports_fit report mem).fits⟩
  cases root_eq : reading.root? with
  | none => rfl
  | some root =>
      obtain ⟨behind, init_eq, -⟩ := exists_query_of_parse final_kind parse_eq root_eq
      exact Tree.fits_of_tokens fun token mem => spans_fit token (by simp [init_eq, mem])

end Grammar
end WorkItemQuery
