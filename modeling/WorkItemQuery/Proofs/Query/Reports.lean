import Mathlib.Data.List.Nodup
import WorkItemQuery.Proofs.Diagnostic.Filtering
import WorkItemQuery.Proofs.Grammar.Parallel
import WorkItemQuery.Proofs.Grammar.Safety
import WorkItemQuery.Proofs.Query.Fields
import WorkItemQuery.Proofs.Token.Tiling

/-!
# What is reported on a query

Everything that is reported on a query starts at a place of its own: on a mistake in the text, where
reading stops, behind the query, or on a field name.  So no report hides another, and a query is
valid exactly if no error is reported on it.
-/

namespace WorkItemQuery

/-- Reports that start at different places do not hide each other. -/
theorem Diagnostic.filtered_of_nodup {diagnostics : List Diagnostic}
    (distinct : (diagnostics.map (·.span.start)).Nodup) :
    Diagnostic.filtered diagnostics = diagnostics := by
  refine filtered_eq_self fun diagnostic mem => ?_
  rintro ⟨other, other_mem, other_hides⟩
  obtain ⟨start_eq, less⟩ := hides_iff.1 other_hides
  obtain rfl := List.inj_on_of_nodup_map distinct other_mem mem start_eq
  exact Nat.lt_irrefl _ less

namespace Grammar

/-! ## Where reading ends -/

/-- A reading beside itself: all that it stops for are errors. -/
def beside (ctx : Context) : Agreement where
  token := Eq
  stop stop _ := ∀ report, stop = .report report → report.isError = true
  left := ctx
  right := ctx
  kind_eq := by
    rintro token _ rfl
    rfl
  of_fault _ := nofun
  of_stop := by
    intro rest _ problem _ is_error report report_eq
    rw [Context.stop, Context.stopAt] at report_eq
    split at report_eq
    · cases report_eq
    · split at report_eq <;> cases report_eq
      · rfl
      · exact beq_iff_eq.2 is_error
  of_stopFor := by
    intro rest _ kind _ report report_eq
    rw [Context.stopFor, Context.stopAt] at report_eq
    split at report_eq
    · cases report_eq
    · split at report_eq <;> cases report_eq <;> rfl
  of_stopUnclosed := by
    intro opened _ rest _ _ _ _ report report_eq
    rw [Context.stopUnclosed] at report_eq
    split at report_eq
    · cases report_eq
    · split at report_eq
      · split at report_eq <;> cases report_eq
        rfl
      · cases report_eq
        rfl

/-- Reading stops for errors only. -/
theorem isError_of_query {ctx : Context} {depth : Nat} {tokens : List Token} {report : Diagnostic}
    (query_eq : query ctx depth tokens = .error (.report report)) : report.isError = true := by
  have same : (beside ctx).Tokens tokens tokens := List.forall₂_same.2 fun _ _ => rfl
  have answers := Agreement.Parallel.query depth tokens tokens same
  have left_eq : query (beside ctx).left depth tokens = .error (.report report) := query_eq
  rw [left_eq] at answers
  generalize query (beside ctx).right depth tokens = answer at answers
  cases answers with
  | stopped _ _ is_error => exact is_error report rfl

/-- How reading a token list ends, and what it reports besides the mistakes in the text. -/
inductive Ends (init : List Token) : Option Tree → List Diagnostic → Prop where
  /-- A query has been read.  What is behind it, if anything, has its report already. -/
  | complete (root : Tree) (behind : List Token) : IsQuery root → init = root.tokens ++ behind →
      Ends init (some root) []
  /-- A query has been read, and something is behind it. -/
  | trailing (root : Tree) (token : Token) (behind : List Token) (report : Diagnostic) :
      IsQuery root → init = root.tokens ++ token :: behind → token.kind.isLexicalError = false →
      report.span.start = token.span.start → Ends init (some root) [report]
  /-- Reading stops at a mistake in the text. -/
  | silent (token : Token) : token ∈ init → token.kind.isLexicalError = true → Ends init none []
  /-- Reading stops at another token. -/
  | misplaced (token : Token) (report : Diagnostic) : token ∈ init →
      token.kind.isLexicalError = false → report.isError = true →
      report.span.start = token.span.start → Ends init none [report]
  /-- Reading stops at the end of the text. -/
  | ended (report : Diagnostic) : report.isError = true → report.span.start = lastStop init →
      Ends init none [report]

section

variable {init : List Token} {final : Token}

theorem ends_of_isVerdict (is_list : IsTokenList init final) {misfit : Token}
    (mem : misfit ∈ init ++ [final]) {verdict : List Diagnostic}
    (errors : ∀ report ∈ verdict, report.isError = true)
    (is_verdict : IsVerdict (init ++ [final]) misfit verdict) : Ends init none verdict := by
  have mem_of_ne : misfit.kind ≠ .endMark → misfit ∈ init := by
    intro not_end
    obtain mem | mem := List.mem_append.1 mem
    · exact mem
    · rw [List.mem_singleton.1 mem] at not_end
      exact absurd is_list.final_kind not_end
  have not_end_of_error : misfit.kind.isLexicalError = true → misfit.kind ≠ .endMark := by
    rintro is_error kind_eq
    rw [kind_eq] at is_error
    cases is_error
  cases is_verdict with
  | known is_error => exact .silent misfit (mem_of_ne (not_end_of_error is_error)) is_error
  | misplaced report no_error not_end start_eq =>
      exact .misplaced misfit report (mem_of_ne not_end) no_error (errors report (.head _)) start_eq
  | ended report at_end problem_eq span_eq =>
      refine .ended report (errors report (.head _)) ?_
      rw [span_eq, List.dropLast_concat]
      rfl
  | unclosed opened report at_end innermost problem_eq start_eq stop_eq =>
      rw [List.dropLast_concat] at innermost
      obtain ⟨front, back, init_eq, opened_kind, -⟩ := innermost
      refine .misplaced opened report (by simp [init_eq]) ?_ (errors report (.head _)) start_eq
      rw [opened_kind]
      rfl

/-- What is behind a query has a report, unless it is nothing or a mistake in the text. -/
theorem ends_behind_query (is_list : IsTokenList init final) {root : Tree} {behind : List Token}
    (is_query : IsQuery root) (init_eq : init = root.tokens ++ behind) :
    Ends init (some root) (trailingReport? ⟨final⟩ (behind ++ [final])).toList := by
  cases behind with
  | nil =>
      have no_trailing : trailingReport? ⟨final⟩ [final] = none :=
        if_pos (.inl is_list.final_kind)
      rw [List.nil_append, no_trailing]
      exact .complete root [] is_query init_eq
  | cons token behind =>
      have token_mem : token ∈ init := by simp [init_eq]
      have is_verdict := isVerdict_trailing is_list token_mem (behind ++ [final])
      rw [List.cons_append]
      generalize (trailingReport? ⟨final⟩ (token :: (behind ++ [final]))).toList = verdict
        at is_verdict
      cases is_verdict with
      | known is_error => exact .complete root (token :: behind) is_query init_eq
      | misplaced report no_error not_end start_eq =>
          exact .trailing root token behind report is_query init_eq no_error start_eq
      | ended report at_end => exact absurd at_end (is_list.no_end token token_mem)
      | unclosed opened report at_end => exact absurd at_end (is_list.no_end token token_mem)

/-- Behind the reports on the mistakes in the text is what reading has ended with. -/
theorem ends_of_parse (is_list : IsTokenList init final) {limit : Option Nat} {reading : Reading}
    (parse_eq : parse limit (init ++ [final]) = .ok reading) :
    ∃ verdict, reading.diagnostics = init.filterMap lexicalReport? ++ verdict ∧
      Ends init reading.root? verdict := by
  have final_kind := is_list.final_kind
  have free_eq : parse none (init ++ [final]) = .ok reading := by
    obtain ⟨limited, -⟩ | same := parse_cases limit (init ++ [final])
    · rw [limited] at parse_eq
      cases parse_eq
    · exact same.symm.trans parse_eq
  have outcome := reads_query (show Context.Closed ⟨final⟩ from final_kind)
    (init ++ [final]).length (init ++ [final]) (Nat.lt_succ_self _)
  rw [parse_of_endMark final_kind, Option.getD_none] at free_eq
  generalize query_eq : query ⟨final⟩ (init ++ [final]).length (init ++ [final]) = answer
    at outcome free_eq
  cases outcome with
  | taken root taken rest tokens_eq holds again =>
      obtain ⟨is_query, rfl⟩ := holds
      obtain ⟨behind, rfl, init_eq⟩ :=
        exists_rest_of_no_endMark final_kind tokens_eq is_query.kind_ne_endMark
      cases free_eq
      exact ⟨_, congrArg (· ++ _) (lexicalReports_concat final_kind),
        ends_behind_query is_list is_query init_eq⟩
  | stopped stop taken rest tokens_eq stops completes again =>
      obtain ⟨root, more, is_query, word_eq⟩ := completes
      rw [List.nil_append] at word_eq stops
      obtain ⟨token, rest, rfl, no_end⟩ := exists_misfit final_kind tokens_eq is_query word_eq
      obtain ⟨verdict, is_verdict, reading_eq⟩ := isVerdict_of_stops is_list tokens_eq no_end stops
      rw [reading_eq] at free_eq
      cases free_eq
      refine ⟨verdict, congrArg (· ++ _) (lexicalReports_concat final_kind), ?_⟩
      refine ends_of_isVerdict is_list (by rw [tokens_eq]; simp) ?_ is_verdict
      cases stop with
      | report stopped =>
          have verdict_eq := List.append_cancel_left
            (congrArg Reading.diagnostics (Except.ok.inj reading_eq))
          rw [← verdict_eq, List.forall_mem_singleton]
          exact isError_of_query query_eq
      | silent =>
          have reports_eq := congrArg Reading.diagnostics (Except.ok.inj reading_eq)
          rw [List.self_eq_append_right.1 reports_eq]
          exact List.forall_mem_nil _
      | fault => cases reading_eq

/-! ## Where reports start -/

/-- A mistake in the text is reported as an error. -/
theorem exists_lexicalReport {token : Token} (is_error : token.kind.isLexicalError = true) :
    ∃ report, lexicalReport? token = some report ∧ report.isError = true := by
  have kinds : ∀ kind : Kind, kind.isLexicalError = true →
      kind = .openString ∨ kind = .unrecognized := by
    decide
  rw [lexicalReport?]
  obtain kind_eq | kind_eq := kinds token.kind is_error <;> rw [kind_eq]
  · exact ⟨_, rfl, rfl⟩
  · exact ⟨_, rfl, rfl⟩

/-- The mistakes in the text are reported where their tokens start. -/
theorem starts_of_lexicalReports (tokens : List Token) :
    (tokens.filterMap lexicalReport?).map (·.span.start) =
      (tokens.filter (·.kind.isLexicalError)).map (·.span.start) := by
  have starts_eq := congrArg (List.map (·.2.start)) (lexicalReports_eq tokens)
  rwa [List.map_map, List.map_map] at starts_eq

/-- Tokens that cover some text start at different places, all of them before the last one ends. -/
theorem nodup_starts (is_list : IsTokenList init final)
    (covers : ∀ token ∈ init, token.span.start < token.span.stop) :
    (init.map (·.span.start)).Nodup ∧ ∀ token ∈ init, token.span.start < lastStop init := by
  constructor
  · rw [List.nodup_iff_pairwise_ne, List.pairwise_map]
    refine is_list.sorted.imp_of_mem fun first_mem _ stop_le => ?_
    exact Nat.ne_of_lt (Nat.lt_of_lt_of_le (covers _ first_mem) stop_le)
  · intro token mem
    obtain ⟨last, last_eq, start_le⟩ := start_le_last is_list mem
    rw [lastStop, last_eq]
    exact Nat.lt_of_le_of_lt start_le (covers last (List.mem_of_getLast? last_eq))

end

end Grammar

/-! ## Reports on fields -/

namespace FieldCatalog

variable (catalog : FieldCatalog)

theorem starts_of_unknownReports (fields : List FieldName) :
    (fields.filterMap catalog.unknownReport?).map (·.span.start) =
      (fields.filter fun field => (catalog.get? field.name).isNone).map
        (·.identifier.span.start) := by
  induction fields with
  | nil => rfl
  | cons field rest ih =>
      cases found_eq : catalog.get? field.name with
      | none =>
          have report_eq : catalog.unknownReport? field = some
              ((Diagnostic.of .unknownField field.identifier.span).withDetail field.name) := by
            rw [unknownReport?, found_eq]
          rw [List.filterMap_cons_some report_eq, List.filter_cons_of_pos (by rw [found_eq]; rfl),
            List.map_cons, List.map_cons, ih]
          rfl
      | some record =>
          have report_eq : catalog.unknownReport? field = none := by
            rw [unknownReport?, found_eq]
          rw [List.filterMap_cons_none report_eq, List.filter_cons_of_neg (by rw [found_eq]; nofun),
            ih]

theorem isSome_of_sameField {left right : String} (same : catalog.sameField left right = true) :
    (catalog.get? right).isSome = true := by
  rw [sameField] at same
  split at same
  · rename_i right_eq
    rw [right_eq]
    rfl
  · cases same

/-- A field that is reported as selected twice is known. -/
theorem starts_of_duplicateReports (earlier fields : List FieldName) :
    ∃ repeated : List FieldName, repeated.Sublist fields ∧
      (∀ field ∈ repeated, (catalog.get? field.name).isSome = true) ∧
      (catalog.duplicateReports earlier fields).map (·.span.start) =
        repeated.map (·.identifier.span.start) := by
  induction fields generalizing earlier with
  | nil => exact ⟨[], .slnil, List.forall_mem_nil _, rfl⟩
  | cons field rest ih =>
      obtain ⟨repeated, is_sublist, all_known, starts_eq⟩ := ih (earlier ++ [field])
      rw [duplicateReports, List.map_append, starts_eq, duplicateReport?]
      cases found_eq : earlier.find? fun first => catalog.sameField first.name field.name with
      | none => exact ⟨repeated, is_sublist.cons _, all_known, rfl⟩
      | some first =>
          have same : catalog.sameField first.name field.name = true := by
            simpa using List.find?_some found_eq
          have known := catalog.isSome_of_sameField same
          exact ⟨field :: repeated, is_sublist.cons_cons _,
            List.forall_mem_cons.2 ⟨known, all_known⟩, rfl⟩

/-- No field name of a query has two reports: one that is unknown is not selected twice. -/
theorem exists_marked {root : Tree} (is_query : Grammar.IsQuery root)
    (distinct : root.tokens.Nodup) :
    ∃ marked : List Token, (catalog.check root).map (·.span.start) = marked.map (·.span.start) ∧
      marked.Nodup ∧ ∀ token ∈ marked, token ∈ root.tokens ∧ token.isName = true := by
  obtain ⟨repeated, is_sublist, all_known, repeated_eq⟩ :=
    catalog.starts_of_duplicateReports [] root.selectedFields
  have unknown_eq := catalog.starts_of_unknownReports root.fieldNames
  have unknown_sublist :
      (root.fieldNames.filter fun field => (catalog.get? field.name).isNone).Sublist
        root.fieldNames := List.filter_sublist
  have all_unknown : ∀ field ∈
      (root.fieldNames.filter fun field => (catalog.get? field.name).isNone),
      (catalog.get? field.name).isNone = true := fun field mem => (List.mem_filter.1 mem).2
  generalize (root.fieldNames.filter fun field => (catalog.get? field.name).isNone) = unknown
    at unknown_eq unknown_sublist all_unknown
  have unknown_names := unknown_sublist.map (·.identifier)
  have repeated_names := is_sublist.map (·.identifier)
  rw [is_query.fieldNames_eq] at unknown_names
  rw [is_query.selectedFields_eq] at repeated_names
  replace repeated_names := repeated_names.trans ((List.takeWhile_sublist _).filter _)
  have is_name : ∀ names : List Token, names.Sublist (root.tokens.filter Token.isName) →
      ∀ token ∈ names, token ∈ root.tokens ∧ token.isName = true :=
    fun names names_sublist token mem => List.mem_filter.1 (names_sublist.subset mem)
  refine ⟨unknown.map (·.identifier) ++ repeated.map (·.identifier), ?_, ?_, ?_⟩
  · rw [check, List.map_append, unknown_eq, repeated_eq, List.map_append, List.map_map,
      List.map_map]
    rfl
  · refine List.nodup_append.2 ⟨(distinct.filter _).sublist unknown_names,
      (distinct.filter _).sublist repeated_names, ?_⟩
    rintro token unknown_mem _ repeated_mem rfl
    obtain ⟨⟨_⟩, field_mem, rfl⟩ := List.mem_map.1 unknown_mem
    obtain ⟨⟨_⟩, same_mem, rfl⟩ := List.mem_map.1 repeated_mem
    have known := all_known _ same_mem
    rw [Option.isNone_iff_eq_none.1 (all_unknown _ field_mem)] at known
    cases known
  · intro token mem
    obtain mem | mem := List.mem_append.1 mem
    · exact is_name _ unknown_names token mem
    · exact is_name _ repeated_names token mem

end FieldCatalog

/-! ## All reports -/

namespace Grammar

section

variable {init : List Token} {final : Token}

/-- Besides the mistakes in the text, what is reported starts at tokens that are none, or at the end
of the text. -/
theorem Ends.exists_marks (distinct : init.Nodup) {root? : Option Tree}
    {verdict : List Diagnostic} (ends : Ends init root? verdict) (catalog : FieldCatalog) :
    (∃ marks : List Token,
      (verdict ++ (root?.map catalog.check).getD []).map (·.span.start) =
        marks.map (·.span.start) ∧
      marks.Nodup ∧ ∀ token ∈ marks, token ∈ init ∧ token.kind.isLexicalError = false) ∨
    (verdict ++ (root?.map catalog.check).getD []).map (·.span.start) = [lastStop init] := by
  have marked_of_root : ∀ {root : Tree} {behind : List Token}, IsQuery root →
      init = root.tokens ++ behind → ∃ marked : List Token,
        (catalog.check root).map (·.span.start) = marked.map (·.span.start) ∧ marked.Nodup ∧
          ∀ token ∈ marked, token ∈ root.tokens ∧ token.kind.isLexicalError = false := by
    intro root behind is_query init_eq
    rw [init_eq] at distinct
    obtain ⟨marked, starts_eq, marked_nodup, marked_names⟩ :=
      catalog.exists_marked is_query (List.nodup_append.1 distinct).1
    refine ⟨marked, starts_eq, marked_nodup, fun token mem => ?_⟩
    obtain ⟨token_mem, is_name⟩ := marked_names token mem
    rw [beq_iff_eq.1 is_name]
    exact ⟨token_mem, rfl⟩
  cases ends with
  | complete root behind is_query init_eq =>
      obtain ⟨marked, starts_eq, marked_nodup, marked_mem⟩ := marked_of_root is_query init_eq
      refine .inl ⟨marked, starts_eq, marked_nodup, fun token mem => ?_⟩
      rw [init_eq]
      exact ⟨List.mem_append_left _ (marked_mem token mem).1, (marked_mem token mem).2⟩
  | trailing root token behind report is_query init_eq no_error start_eq =>
      obtain ⟨marked, starts_eq, marked_nodup, marked_mem⟩ := marked_of_root is_query init_eq
      rw [init_eq] at distinct ⊢
      have token_new : token ∉ marked := fun mem =>
        (List.nodup_append.1 distinct).2.2 token (marked_mem token mem).1 token (.head _) rfl
      refine .inl ⟨token :: marked, ?_, marked_nodup.cons token_new, List.forall_mem_cons.2
        ⟨⟨by simp, no_error⟩, fun other mem => ⟨?_, (marked_mem other mem).2⟩⟩⟩
      · exact congrArg₂ List.cons start_eq starts_eq
      · exact List.mem_append_left _ (marked_mem other mem).1
  | silent token mem is_error =>
      exact .inl ⟨[], rfl, .nil, List.forall_mem_nil _⟩
  | misplaced token report mem no_error is_error start_eq =>
      exact .inl ⟨[token], congrArg (fun start => [start]) start_eq, List.nodup_singleton token,
        List.forall_mem_singleton.2 ⟨mem, no_error⟩⟩
  | ended report is_error start_eq => exact .inr (congrArg (fun start => [start]) start_eq)

/-- All reports on the tokens of a text and on their fields start at different places. -/
theorem Ends.nodup (is_list : IsTokenList init final)
    (covers : ∀ token ∈ init, token.span.start < token.span.stop) {root? : Option Tree}
    {verdict : List Diagnostic} (ends : Ends init root? verdict) (catalog : FieldCatalog) :
    ((init.filterMap lexicalReport? ++ (verdict ++ (root?.map catalog.check).getD [])).map
      (·.span.start)).Nodup := by
  obtain ⟨starts_nodup, start_lt⟩ := nodup_starts is_list covers
  have start_inj := List.inj_on_of_nodup_map starts_nodup
  have distinct : init.Nodup := starts_nodup.of_map
  have mistakes_mem : ∀ token ∈ init.filter (·.kind.isLexicalError),
      token ∈ init ∧ token.kind.isLexicalError = true := fun token => List.mem_filter.1
  have mistakes_nodup : ((init.filter (·.kind.isLexicalError)).map (·.span.start)).Nodup :=
    starts_nodup.sublist (List.filter_sublist.map _)
  rw [List.map_append, starts_of_lexicalReports]
  obtain ⟨marks, starts_eq, marks_nodup, marks_mem⟩ | starts_eq := ends.exists_marks distinct catalog
  · rw [starts_eq]
    refine List.nodup_append.2 ⟨mistakes_nodup, ?_, ?_⟩
    · exact marks_nodup.map_on fun first first_mem second second_mem =>
        start_inj (marks_mem first first_mem).1 (marks_mem second second_mem).1
    · intro start start_mem _ other_mem
      obtain ⟨mistake, mem, rfl⟩ := List.mem_map.1 start_mem
      obtain ⟨mark, mark_mem, rfl⟩ := List.mem_map.1 other_mem
      obtain ⟨mistake_mem, is_error⟩ := mistakes_mem mistake mem
      obtain ⟨mark_mem, no_error⟩ := marks_mem mark mark_mem
      intro start_eq
      obtain rfl := start_inj mistake_mem mark_mem start_eq
      rw [is_error] at no_error
      cases no_error
  · rw [starts_eq]
    refine List.nodup_append.2 ⟨mistakes_nodup, List.nodup_singleton _, ?_⟩
    intro start start_mem _ last_mem
    obtain ⟨mistake, mem, rfl⟩ := List.mem_map.1 start_mem
    obtain rfl := List.mem_singleton.1 last_mem
    exact Nat.ne_of_lt (start_lt mistake (mistakes_mem mistake mem).1)

/-- Where nothing is read, an error is reported. -/
theorem Ends.exists_error {root? : Option Tree} {verdict : List Diagnostic}
    (ends : Ends init root? verdict) (no_root : root? = none) :
    ∃ report ∈ init.filterMap lexicalReport? ++ verdict, report.isError = true := by
  cases ends with
  | complete => cases no_root
  | trailing => cases no_root
  | silent token mem is_error =>
      obtain ⟨report, report_eq, report_error⟩ := exists_lexicalReport is_error
      have report_mem := List.mem_filterMap.2 ⟨token, mem, report_eq⟩
      exact ⟨report, List.mem_append_left _ report_mem, report_error⟩
  | misplaced token report mem no_error is_error =>
      exact ⟨report, List.mem_append_right _ (.head _), is_error⟩
  | ended report is_error => exact ⟨report, List.mem_append_right _ (.head _), is_error⟩

end

end Grammar

/-! ## Validity -/

namespace Query

/-- A query whose reports tell all that is wrong with it. -/
structure IsReported (query : Query) : Prop where
  /-- Every report starts at a place of its own. -/
  distinct : ((query.parseDiagnostics ++ query.fieldDiagnostics).map (·.span.start)).Nodup
  /-- No report is hidden. -/
  diagnostics_eq : query.diagnostics = query.parseDiagnostics ++ query.fieldDiagnostics
  /-- A text without a tree has an error. -/
  error_of_none : query.root? = none → ∃ report ∈ query.parseDiagnostics, report.isError = true
  /-- A query is valid if no error is reported. -/
  isValid_iff : query.isValid = true ↔ ∀ report ∈ query.diagnostics, report.isError = false
  /-- What passes as valid is the query itself, and has a tree. -/
  of_valid : ∀ valid, query.valid = .ok valid → valid = query ∧ query.root?.isSome = true
  /-- What does not pass has errors, and the message counts them. -/
  of_invalid : ∀ message, query.valid = .error message →
    message = query.invalidMessage ∧ 0 < Diagnostic.errorCount query.diagnostics

variable {query : Query}

theorem isReported_of_nodup
    (distinct : ((query.parseDiagnostics ++ query.fieldDiagnostics).map (·.span.start)).Nodup)
    (error_of_none : query.root? = none →
      ∃ report ∈ query.parseDiagnostics, report.isError = true) : query.IsReported := by
  have diagnostics_eq : query.diagnostics = query.parseDiagnostics ++ query.fieldDiagnostics :=
    Diagnostic.filtered_of_nodup distinct
  have isValid_iff : query.isValid = true ↔
      ∀ report ∈ query.diagnostics, report.isError = false := by
    rw [diagnostics_eq, List.forall_mem_append]
    cases root_eq : query.root? with
    | none =>
        obtain ⟨report, mem, is_error⟩ := error_of_none root_eq
        rw [isValid, root_eq]
        refine ⟨nofun, fun ⟨no_error, _⟩ => ?_⟩
        rw [no_error report mem] at is_error
        cases is_error
    | some root => simp [isValid, root_eq, Diagnostic.hasErrors]
  refine ⟨distinct, diagnostics_eq, error_of_none, isValid_iff, ?_, ?_⟩
  · intro valid valid_eq
    rw [Query.valid] at valid_eq
    split at valid_eq
    · rename_i is_valid
      cases valid_eq
      rw [isValid, Bool.and_assoc] at is_valid
      exact ⟨rfl, (Bool.and_eq_true_iff.1 is_valid).1⟩
    · cases valid_eq
  · intro message valid_eq
    rw [Query.valid] at valid_eq
    split at valid_eq
    · cases valid_eq
    · rename_i not_valid
      cases valid_eq
      refine ⟨rfl, List.countP_pos_iff.2 ?_⟩
      simpa [isValid_iff] using not_valid

/-- A query that has been read holds what its tokens have been read as. -/
theorem exists_reading {limit : Option Nat} {source : String}
    (parse_eq : parse limit source = .ok query) :
    ∃ reading, Grammar.parse limit (tokenize source) = .ok reading ∧
      query = ⟨source, reading.tokens, reading.root?, reading.diagnostics, []⟩ := by
  cases reading_eq : Grammar.parse limit (tokenize source) with
  | error fault =>
      rw [parse, reading_eq] at parse_eq
      cases parse_eq
  | ok reading =>
      rw [parse, reading_eq] at parse_eq
      exact ⟨reading, rfl, (Except.ok.inj parse_eq).symm⟩

/-- Looking up the fields again and again leaves the reports of the last time. -/
theorem foldl_validate (query : Query) (fieldDiagnostics_eq : query.fieldDiagnostics = [])
    (catalogs : List FieldCatalog) :
    catalogs.foldl validate query =
      { query with
        fieldDiagnostics :=
          (catalogs.getLast?.bind fun catalog => query.root?.map catalog.check).getD [] } := by
  have keeps : ∀ (catalogs : List FieldCatalog) (query : Query), ∃ reports,
      catalogs.foldl validate query = { query with fieldDiagnostics := reports } := by
    intro catalogs
    induction catalogs with
    | nil => exact fun query => ⟨query.fieldDiagnostics, rfl⟩
    | cons catalog rest ih => exact fun query => ih (query.validate catalog)
  obtain rfl | ⟨front, catalog, rfl⟩ := List.eq_nil_or_concat catalogs
  · rw [List.foldl_nil, List.getLast?_nil, Option.bind_none, Option.getD_none,
      ← fieldDiagnostics_eq]
  · obtain ⟨reports, front_eq⟩ := keeps front query
    rw [List.concat_eq_append, List.foldl_append, front_eq, List.getLast?_concat]
    rfl

/-- Whatever catalogs the fields of a query are looked up in, the reports of the last one stand
behind those of its text.  They all start at different places, and the query is valid if there is no
error among them. -/
theorem isReported_of_parse {limit : Option Nat} {source : String}
    (parse_eq : parse limit source = .ok query) (catalogs : List FieldCatalog) :
    catalogs.foldl validate query =
        { query with
          fieldDiagnostics :=
            (catalogs.getLast?.bind fun catalog => query.root?.map catalog.check).getD [] } ∧
      (catalogs.foldl validate query).IsReported := by
  obtain ⟨init, final, tokens_eq, is_list, -⟩ := exists_tokenize_eq source
  rw [parse, tokens_eq] at parse_eq
  cases reading_eq : Grammar.parse limit (init ++ [final]) with
  | error fault =>
      rw [reading_eq] at parse_eq
      cases parse_eq
  | ok reading =>
      rw [reading_eq] at parse_eq
      cases parse_eq
      have checked_eq := foldl_validate
        ⟨source, reading.tokens, reading.root?, reading.diagnostics, []⟩ rfl catalogs
      refine ⟨checked_eq, ?_⟩
      obtain ⟨verdict, reports_eq, ends⟩ := Grammar.ends_of_parse is_list reading_eq
      refine isReported_of_nodup ?_ ?_
      · have distinct := ends.nodup is_list (start_lt_stop_of_tokenize tokens_eq)
          (catalogs.getLast?.getD ⟨[], []⟩)
        rw [← List.append_assoc, ← reports_eq] at distinct
        refine distinct.sublist (List.Sublist.map _ ?_)
        rw [checked_eq]
        refine List.Sublist.append_left ?_ _
        cases catalogs.getLast? with
        | none => exact List.nil_sublist _
        | some catalog => exact .refl _
      · intro no_root
        rw [checked_eq] at no_root ⊢
        obtain ⟨report, mem, is_error⟩ := ends.exists_error no_root
        rw [← reports_eq] at mem
        exact ⟨report, mem, is_error⟩

/-- A query with a word behind it, a field that is selected twice and one that is not known. -/
theorem isReported_of_parse_trailing :
    ∃ query checked, parse (some 0) "select id, x, ID from workitems y" = .ok query ∧
      checked = [.ofList [], .ofList [{ name := "ID", referenceName := "System.Id" }]].foldl
        validate query ∧
      checked.diagnostics.map (fun report => (report.problem, report.span.start)) =
        [(.trailingInput, 32), (.unknownField, 11), (.duplicateField, 14)] ∧
      checked.IsReported := by
  have is_read : ((parse (some 0) "select id, x, ID from workitems y").toOption.any fun query =>
      ([.ofList [], .ofList [{ name := "ID", referenceName := "System.Id" }]].foldl
        validate query).diagnostics.map (fun report => (report.problem, report.span.start)) ==
        [(.trailingInput, 32), (.unknownField, 11), (.duplicateField, 14)]) = true := by
    decide +kernel
  cases parse_eq : parse (some 0) "select id, x, ID from workitems y" with
  | error fault =>
      rw [parse_eq] at is_read
      cases is_read
  | ok query =>
      rw [parse_eq] at is_read
      exact ⟨query, _, rfl, rfl, beq_iff_eq.1 is_read, (isReported_of_parse parse_eq _).2⟩

end Query
end WorkItemQuery
