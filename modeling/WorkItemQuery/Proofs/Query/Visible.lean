import WorkItemQuery.Proofs.Diagnostic.Drawing
import WorkItemQuery.Proofs.Grammar.Spans
import WorkItemQuery.Proofs.Query.Validation

/-!
# Reports that can be seen

All that is reported on a query can be seen in its text, however many bytes its characters take.
The reports on tokens cover some text.  Where the text ends too early, a report stands behind the
last token, and what follows there is blank and takes one byte for each character.
-/

namespace WorkItemQuery

open Lexer (Tiles bytes bytes_append bytes_toList gapChars)

/-! ## Tokens -/

namespace Lexer

/-- Behind the last token of a text is a blank gap. -/
theorem Tiles.exists_gap {offset : Nat} {text : List Char} {tokens : List Token}
    (tiles : Tiles offset text tokens) :
    ∃ front gap, text = front ++ gap ∧ (∀ char ∈ gap, char ∈ gapChars) ∧
      (tokens.getLast?.map (·.span.stop)).getD offset = offset + bytes front := by
  induction tiles with
  | gap offset gap only_gap => exact ⟨[], gap, rfl, only_gap, rfl⟩
  | token offset gap rest token tokens only_gap offset_eq not_empty tiles ih =>
      obtain ⟨front, last_gap, rfl, only_last_gap, stop_eq⟩ := ih
      refine ⟨gap ++ (token.text.toList ++ front), last_gap, by simp, only_last_gap, ?_⟩
      have token_stop_eq : token.span.stop = offset + bytes (gap ++ token.text.toList) := by
        rw [bytes_append, bytes_toList, ← Nat.add_assoc, ← offset_eq]
        rfl
      rw [← List.append_assoc, bytes_append, ← Nat.add_assoc, ← token_stop_eq, ← stop_eq,
        List.getLast?_cons]
      cases tokens.getLast? <;> rfl

end Lexer

section

variable {source : String} {init : List Token} {final : Token}

/-- The end mark of a text stands behind the tokens and gaps that make it up. -/
theorem tiles_of_tokenize (tokens_eq : tokenize source = init ++ [final]) :
    Tiles 0 source.toList init ∧ final.span = .empty (bytes source.toList) := by
  obtain ⟨rfl, final_eq⟩ := List.append_inj' tokens_eq rfl
  refine ⟨(Lexer.lexes_place {} source.toList).tiles, ?_⟩
  have offset_eq := Lexer.offset_afterAll {} source.toList
  obtain rfl := List.singleton_inj.1 final_eq
  refine Span.eq_of_ends ?_ ?_ <;> exact offset_eq.trans (Nat.zero_add _)

/-- The end of the last token can be seen. -/
theorem isVisible_lastStop (tokens_eq : tokenize source = init ++ [final]) :
    (Span.empty (Grammar.lastStop init)).IsVisible source := by
  obtain ⟨front, gap, source_eq, only_gap, stop_eq⟩ := (tiles_of_tokenize tokens_eq).1.exists_gap
  have small : ∀ char ∈ gapChars, char.utf8Size = 1 := by decide
  have last_eq : Grammar.lastStop init = bytes front := by
    rw [Nat.zero_add] at stop_eq
    rw [← stop_eq, Grammar.lastStop]
    cases init.getLast? <;> rfl
  rw [last_eq]
  exact Span.isVisible_empty source_eq fun char mem => small char (only_gap char mem)

/-- All tokens of a text can be seen. -/
theorem isVisible_of_tokenize (tokens_eq : tokenize source = init ++ [final]) :
    ∀ token ∈ init ++ [final], token.span.IsVisible source := by
  obtain ⟨tiles, final_eq⟩ := tiles_of_tokenize tokens_eq
  rw [List.forall_mem_append, List.forall_mem_singleton, final_eq]
  refine ⟨fun token mem => ?_, Span.isVisible_empty (List.append_nil _).symm nofun⟩
  obtain ⟨-, front, back, source_eq, offset_eq⟩ := tiles.exists_slice mem
  rw [Nat.zero_add] at offset_eq
  have stop_eq : token.span.stop = bytes (front ++ token.text.toList) := by
    rw [bytes_append, bytes_toList, ← offset_eq]
    rfl
  refine Span.isVisible_of_isValid ?_ ?_ fun same => ?_
  · exact isValid_iff.2 ⟨front, token.text.toList ++ back, by rw [source_eq, List.append_assoc],
      offset_eq⟩
  · exact isValid_iff.2 ⟨front ++ token.text.toList, back, source_eq, stop_eq⟩
  · exact absurd same (Nat.ne_of_lt (start_lt_stop_of_tokenize tokens_eq token mem))

end

/-! ## Reading -/

theorem Span.isVisible_isKept (source : String) :
    Span.IsKept fun span => span.IsVisible source where
  cover := IsVisible.cover
  between left_visible stop_visible := left_visible.between stop_visible

/-- All that is reported on the tokens of a text can be seen. -/
theorem Grammar.isVisible_of_parse {source : String} {init : List Token} {final : Token}
    (tokens_eq : tokenize source = init ++ [final]) (is_list : IsTokenList init final)
    {limit : Option Nat} {reading : Reading}
    (parse_eq : parse limit (init ++ [final]) = .ok reading) :
    ∀ report ∈ reading.diagnostics, report.IsVisible source := by
  have tokens_visible := isVisible_of_tokenize tokens_eq
  have ctx_visible : Context.AllSpans (fun span => span.IsVisible source) ⟨final⟩ := by
    refine ⟨tokens_visible final (by simp), ?_, fun last last_eq => ?_⟩
    · rw [endOffset_of_isTokenList is_list]
      exact isVisible_lastStop tokens_eq
    · rw [is_list.prev_eq] at last_eq
      exact tokens_visible last (List.mem_append_left _ (List.mem_of_getLast? last_eq))
  intro report mem
  have shown := allSpans_of_parse (Span.isVisible_isKept source) is_list.final_kind ctx_visible
    tokens_visible parse_eq report mem
  exact ⟨shown.span, shown.notes⟩

/-! ## Fields -/

/-- All that is reported on the fields of a query can be seen where its tokens can. -/
theorem FieldCatalog.isVisible_of_check {source : String} {root : Tree}
    (is_query : Grammar.IsQuery root)
    (visible : ∀ token ∈ root.tokens, token.span.IsVisible source) (catalog : FieldCatalog) :
    ∀ report ∈ catalog.check root, report.IsVisible source := by
  have field_visible : ∀ {tokens : List Token}, tokens ⊆ root.tokens →
      ∀ field ∈ fieldsAmong tokens, field.identifier.span.IsVisible source := by
    intro tokens subset field mem
    obtain ⟨token, token_mem, rfl⟩ := List.mem_map.1 mem
    exact visible token (subset (List.mem_filter.1 token_mem).1)
  have selected_visible : ∀ field ∈ root.selectedFields,
      field.identifier.span.IsVisible source := by
    rw [eq_fieldsAmong is_query.selectedFields_eq]
    exact field_visible (List.takeWhile_sublist _).subset
  rw [check, unknownReports_eq, eq_fieldsAmong is_query.fieldNames_eq]
  intro report mem
  obtain mem | mem := List.mem_append.1 mem
  · obtain ⟨field, field_mem, rfl⟩ := List.mem_map.1 mem
    exact ⟨field_visible (List.Subset.refl _) field (List.mem_filter.1 field_mem).1,
      List.forall_mem_nil _⟩
  · obtain ⟨first, first_mem, field, field_mem, rfl⟩ := exists_of_mem_duplicateReports mem
    exact ⟨selected_visible field field_mem,
      List.forall_mem_singleton.2 (selected_visible first first_mem)⟩

namespace Query

variable {limit : Option Nat} {source : String} {query : Query}

theorem isVisible_of_mem_reports (parse_eq : parse limit source = .ok query)
    (catalogs : List FieldCatalog) {report : Diagnostic}
    (mem : report ∈ (catalogs.foldl validate query).parseDiagnostics ++
      (catalogs.foldl validate query).fieldDiagnostics) : report.IsVisible source := by
  obtain ⟨init, final, tokens_eq, is_list, -⟩ := exists_tokenize_eq source
  rw [foldl_validate query (fieldDiagnostics_of_parse parse_eq) catalogs] at mem
  obtain ⟨reading, reading_eq, rfl⟩ := exists_reading parse_eq
  rw [tokens_eq] at reading_eq
  obtain mem | mem := List.mem_append.1 mem
  · exact Grammar.isVisible_of_parse tokens_eq is_list reading_eq report mem
  · cases root_eq : reading.root? with
    | none => simp [root_eq] at mem
    | some root =>
        obtain ⟨behind, init_eq, -⟩ :=
          Grammar.exists_query_of_parse is_list.final_kind reading_eq root_eq
        have tokens_visible : ∀ token ∈ root.tokens, token.span.IsVisible source :=
          fun token mem => isVisible_of_tokenize tokens_eq token (by simp [init_eq, mem])
        cases last_eq : catalogs.getLast? with
        | none => simp [last_eq] at mem
        | some catalog =>
            refine catalog.isVisible_of_check (isQuery_of_parse parse_eq root_eq).1 tokens_visible
              report ?_
            simpa [last_eq, root_eq] using mem

/-- Whatever catalogs the fields of a query are looked up in, all that is reported on it can be seen
in its text, and is drawn. -/
theorem reports_visible (parse_eq : parse limit source = .ok query)
    (catalogs : List FieldCatalog) :
    ∀ report ∈ (catalogs.foldl validate query).parseDiagnostics ++
        (catalogs.foldl validate query).fieldDiagnostics,
      report.IsVisible source ∧ ∀ path? colored, ∃ drawing,
        report.draw? source path? colored = some drawing ∧ drawing ≠ "" := by
  intro report mem
  have visible := isVisible_of_mem_reports parse_eq catalogs mem
  exact ⟨visible, visible.exists_drawing⟩

/-- A text that ends too early, with blanks behind its last word and letters of two bytes before. -/
theorem reports_visible_early_end :
    ∃ query report, parse none "select [ü] from workitems where [ü] = 'ü' and \t\n" = .ok query ∧
      report ∈ ([.ofList []].foldl validate query).parseDiagnostics ++
        ([.ofList []].foldl validate query).fieldDiagnostics ∧
      report.span = .empty 48 ∧
      (Span.empty 48).widened "select [ü] from workitems where [ü] = 'ü' and \t\n" = (48, 49) ∧
      report.IsVisible "select [ü] from workitems where [ü] = 'ü' and \t\n" ∧
      ∀ path? colored, ∃ drawing,
        report.draw? "select [ü] from workitems where [ü] = 'ü' and \t\n" path? colored =
          some drawing ∧ drawing ≠ "" := by
  have is_read : ((parse none
      "select [ü] from workitems where [ü] = 'ü' and \t\n").toOption.any fun query =>
        query.parseDiagnostics.map (·.span) == [.empty 48]) = true := by
    decide +kernel
  cases parse_eq : parse none "select [ü] from workitems where [ü] = 'ü' and \t\n" with
  | error fault =>
      rw [parse_eq] at is_read
      cases is_read
  | ok query =>
      rw [parse_eq] at is_read
      obtain ⟨report, reports_eq, span_eq⟩ := List.map_eq_singleton_iff.1 (beq_iff_eq.1 is_read)
      have mem : report ∈ ([.ofList []].foldl validate query).parseDiagnostics ++
          ([.ofList []].foldl validate query).fieldDiagnostics := by
        refine List.mem_append_left _ ?_
        change report ∈ query.parseDiagnostics
        rw [reports_eq]
        exact .head _
      exact ⟨query, report, rfl, mem, span_eq, by decide +kernel,
        reports_visible parse_eq [.ofList []] report mem⟩

end Query

/-! ## Offsets of 32 bits -/

section

variable {source : String}

/-- What can be seen in a text fits into 32 bits where the end of the text does. -/
theorem Span.IsVisible.fits {span : Span} (visible : span.IsVisible source)
    (small : source.utf8ByteSize < Span.bound) : span.fits = true :=
  decide_eq_true (Nat.lt_of_le_of_lt visible.cuts.stop_le_size small)

/-- The tokens of a text fit into 32 bits where its end does. -/
theorem fits_of_tokenize (small : source.utf8ByteSize < Span.bound) :
    ∀ token ∈ tokenize source, token.fits = true := by
  have tokens_eq : tokenize source = _ ++ [_] := rfl
  have visible := isVisible_of_tokenize tokens_eq
  have init_fit : ∀ token ∈ Lexer.place {} (Lexer.join (Lexer.pieces source.toList)),
      token.fits = true := by
    intro token mem
    obtain ⟨-, -, before_eq⟩ := (lexes_of_tokenize tokens_eq).isToken token mem
    refine Bool.and_eq_true_iff.2 ⟨(visible token (List.mem_append_left _ mem)).fits small, ?_⟩
    rw [before_eq]
    rfl
  refine List.forall_mem_append.2 ⟨init_fit, List.forall_mem_singleton.2 ?_⟩
  refine Token.fits_endMark ?_ fun prev mem => init_fit prev (List.mem_of_getLast? mem)
  exact of_decide_eq_true ((visible _ (List.mem_append_right _ (.head _))).fits small)

theorem Query.tokens_of_parse {limit : Option Nat} {query : Query}
    (parse_eq : parse limit source = .ok query) : query.tokens = tokenize source := by
  obtain ⟨reading, reading_eq, rfl⟩ := exists_reading parse_eq
  obtain ⟨init, final, tokens_eq, is_list, -⟩ := exists_tokenize_eq source
  rw [tokens_eq, Grammar.parse_of_endMark is_list.final_kind] at reading_eq
  rw [tokens_eq]
  exact Grammar.tokens_of_readingOf reading_eq

/-- Where the end of a text fits into 32 bits, all spans fit that are answered: those of the tokens,
of the nodes of the tree, and of all that is reported, whatever catalogs the fields are looked up
in. -/
theorem Query.fits_of_parse {limit : Option Nat} {query : Query}
    (small : source.utf8ByteSize < Span.bound) (parse_eq : parse limit source = .ok query)
    (catalogs : List FieldCatalog) :
    (∀ token ∈ query.tokens, token.fits = true) ∧
      (∀ root ∈ query.root?, ∀ node ∈ root.preOrder, node.fits = true) ∧
      ∀ report ∈ (catalogs.foldl validate query).parseDiagnostics ++
        (catalogs.foldl validate query).fieldDiagnostics, report.fits = true := by
  refine ⟨?_, ?_, fun report mem => ?_⟩
  · rw [tokens_of_parse parse_eq]
    exact fits_of_tokenize small
  · intro root root_eq node mem
    refine Tree.fits_of_tokens fun token token_mem =>
      Token.fits_span (fits_of_tokenize small token ?_)
    obtain ⟨reading, reading_eq, rfl⟩ := exists_reading parse_eq
    obtain ⟨init, final, tokens_eq, is_list, -⟩ := exists_tokenize_eq source
    rw [tokens_eq] at reading_eq
    obtain ⟨behind, init_eq, -⟩ :=
      Grammar.exists_query_of_parse is_list.final_kind reading_eq root_eq
    have root_mem := (Tree.tokens_infix mem).subset token_mem
    simp [tokens_eq, init_eq, root_mem]
  · have visible := isVisible_of_mem_reports parse_eq catalogs mem
    exact Diagnostic.AllSpans.fits
      ⟨visible.span.fits small, fun note mem => (visible.notes note mem).fits small⟩

end

end WorkItemQuery
