import WorkItemQuery.Proofs.Grammar.Parallel
import WorkItemQuery.Proofs.Query.Fields
import WorkItemQuery.Proofs.Query.Printing
import WorkItemQuery.Proofs.Query.Reports
import WorkItemQuery.Proofs.Token.Case

/-!
# The case of words

A query whose words are written in another case is read alike.  Reports show words in their
canonical spelling and other tokens as they are written, fields are looked up under the names in the
text, and the canonical text spells every word in one way.
-/

namespace WorkItemQuery

/-! ## Tokens -/

namespace Token.IsRecased

variable {token token' : Token} (same : token.IsRecased token')

include same

theorem shown_eq : token'.shown = token.shown := by
  rw [shown, shown, same.kind_eq]
  cases is_keyword : token.kind.isKeyword with
  | true => rw [if_pos (.inr rfl), if_pos (.inr rfl)]
  | false => rw [same.text_eq is_keyword]

theorem canonicalSpelling_eq : token'.canonicalSpelling = token.canonicalSpelling := by
  have fixed : ∀ kind : Kind, kind.isKeyword = true → kind.canonicalText?.isSome = true := by decide
  refine canonicalSpelling_congr same.kind_eq ?_
  cases is_keyword : token.kind.isKeyword with
  | true => exact .inl (fixed _ is_keyword)
  | false => exact .inr (same.text_eq is_keyword)

/-- A token that is no word is the same token. -/
theorem eq_of_not_keyword (not_keyword : token.kind.isKeyword = false)
    (before_eq : token'.before = token.before) : token' = token := by
  have offset_eq := congrArg Span.start same.span_eq
  obtain ⟨⟨kind, line, column, offset, text⟩, before⟩ := token
  obtain ⟨⟨kind', line', column', offset', text'⟩, before'⟩ := token'
  obtain rfl : kind' = kind := same.kind_eq
  obtain rfl : line' = line := same.line_eq
  obtain rfl : column' = column := same.column_eq
  obtain rfl : offset' = offset := offset_eq
  obtain rfl : text' = text := same.text_eq not_keyword
  obtain rfl : before' = before := before_eq
  rfl

theorem lexicalReport?_eq : Grammar.lexicalReport? token' = Grammar.lexicalReport? token := by
  have not_keyword : ∀ kind : Kind, kind.isLexicalError = true → kind.isKeyword = false := by decide
  cases is_error : token.kind.isLexicalError with
  | true =>
      rw [Grammar.lexicalReport?, Grammar.lexicalReport?, same.kind_eq, same.span_eq,
        same.text_eq (not_keyword _ is_error)]
  | false =>
      rw [Grammar.lexicalReport?_eq_none_iff.2 is_error,
        Grammar.lexicalReport?_eq_none_iff.2 (same.kind_eq ▸ is_error)]

end Token.IsRecased

namespace Grammar

/-- The tokens of two lists are the same but for the case of words. -/
abbrev Recasing (tokens tokens' : List Token) : Prop := List.Forall₂ Token.IsRecased tokens tokens'

theorem Recasing.lexicalReports_eq {tokens tokens' : List Token} (same : Recasing tokens tokens') :
    tokens'.filterMap lexicalReport? = tokens.filterMap lexicalReport? := by
  induction same with
  | nil => rfl
  | cons token_same _ ih =>
      rw [List.filterMap_cons, List.filterMap_cons, token_same.lexicalReport?_eq, ih]

theorem Recasing.spellings_eq {tokens tokens' : List Token} (same : Recasing tokens tokens') :
    tokens'.map Token.canonicalSpelling = tokens.map Token.canonicalSpelling :=
  map_eq_of_forall₂ (fun _ _ token_same => token_same.canonicalSpelling_eq) same

theorem Recasing.getLast? {tokens tokens' : List Token} (same : Recasing tokens tokens') :
    Option.Rel Token.IsRecased tokens.getLast? tokens'.getLast? := by
  have reverse_same := List.rel_reverse same
  rw [List.getLast?_eq_head?_reverse, List.getLast?_eq_head?_reverse]
  generalize tokens.reverse = reversed, tokens'.reverse = reversed' at reverse_same
  obtain _ | ⟨last_same, _⟩ := reverse_same
  · exact .none
  · exact .some last_same

theorem Recasing.of_concat {init init' : List Token} {final final' : Token}
    (same : Recasing (init ++ [final]) (init' ++ [final'])) :
    Recasing init init' ∧ final.IsRecased final' := by
  have reverse_same := List.rel_reverse same
  rw [List.reverse_concat, List.reverse_concat] at reverse_same
  obtain _ | ⟨final_same, init_same⟩ := reverse_same
  have init_same := List.rel_reverse init_same
  rw [List.reverse_reverse, List.reverse_reverse] at init_same
  exact ⟨init_same, final_same⟩

/-! ## Readings -/

/-- The ends of two texts are the same but for the case of words. -/
structure SameEnd (final final' : Token) : Prop where
  /-- The end marks. -/
  marks : final.IsRecased final'
  /-- The tokens before them. -/
  before : Option.Rel Token.IsRecased final.prev? final'.prev?

section

variable {final final' : Token} {rest rest' : List Token}

theorem SameEnd.endOffset_eq (same_end : SameEnd final final') :
    Context.endOffset ⟨final'⟩ = Context.endOffset ⟨final⟩ := by
  have prev_same := same_end.before
  rw [Context.endOffset, Context.endOffset]
  dsimp only
  generalize final.prev? = prev, final'.prev? = prev' at prev_same
  cases prev_same with
  | none => rfl
  | some token_same => exact congrArg Span.stop token_same.span_eq

theorem SameEnd.current (same_end : SameEnd final final') (same : Recasing rest rest') :
    (Context.current ⟨final⟩ rest).IsRecased (Context.current ⟨final'⟩ rest') := by
  cases same with
  | nil => exact same_end.marks
  | cons token_same => exact token_same

theorem SameEnd.stopAt_eq (same_end : SameEnd final final') (same : Recasing rest rest')
    (problem : Problem) (expected detail : String) :
    Context.stopAt ⟨final'⟩ rest' problem expected detail =
      Context.stopAt ⟨final⟩ rest problem expected detail := by
  have current_same := same_end.current same
  rw [Context.stopAt, Context.stopAt, current_same.kind_eq, current_same.span_eq,
    same_end.endOffset_eq]

/-- Reading texts that are the same but for the case of words stops for the same reasons. -/
def recasing (same_end : SameEnd final final') : Agreement where
  token := Token.IsRecased
  stop := SameStop
  left := ⟨final⟩
  right := ⟨final'⟩
  kind_eq same := same.kind_eq
  of_fault := SameStop.fault
  of_stop problem same _ := by
    rw [Context.stop, Context.stop, same_end.stopAt_eq same, (same_end.current same).shown_eq]
  of_stopFor kind same := by
    rw [Context.stopFor, Context.stopFor, same_end.stopAt_eq same, (same_end.current same).shown_eq]
  of_stopUnclosed _ opened_same same := by
    have current_same := same_end.current same
    rw [Context.stopUnclosed, Context.stopUnclosed, opened_same.span_eq, current_same.kind_eq,
      current_same.span_eq, current_same.shown_eq, same_end.endOffset_eq]

theorem SameEnd.trailingReport?_eq (same_end : SameEnd final final') (same : Recasing rest rest') :
    trailingReport? ⟨final'⟩ rest' = trailingReport? ⟨final⟩ rest := by
  have current_same := same_end.current same
  have prev_same := same_end.before
  rw [trailingReport?, trailingReport?, current_same.kind_eq, current_same.span_eq,
    current_same.shown_eq]
  dsimp only
  generalize final.prev? = prev, final'.prev? = prev' at prev_same
  cases prev_same with
  | none => rw [current_same.span_eq]
  | some token_same => rw [token_same.span_eq]

/-- Both token lists have no answer for the same reason, or the same is reported and the trees are
alike. -/
inductive SameReading : Except Fault Reading → Except Fault Reading → Prop where
  | fault (fault : Fault) : SameReading (.error fault) (.error fault)
  | read (reading reading' : Reading) : reading'.diagnostics = reading.diagnostics →
      Option.Rel (fun root root' => Tree.Alike root root' ∧ Recasing root.tokens root'.tokens)
        reading.root? reading'.root? →
      SameReading (.ok reading) (.ok reading')

theorem parse_recased (same_end : SameEnd final final') (final_kind : final.kind = .endMark)
    {init init' : List Token} (same : Recasing init init') (limit : Option Nat) :
    SameReading (parse limit (init ++ [final])) (parse limit (init' ++ [final'])) := by
  have tokens_same : Recasing (init ++ [final]) (init' ++ [final']) :=
    List.rel_append same (.cons same_end.marks .nil)
  have final_kind' := same_end.marks.kind_eq.trans final_kind
  have answers := Agreement.Parallel.query (limit.getD (init ++ [final]).length) _ _
    (show (recasing same_end).Tokens _ _ from tokens_same)
  rw [parse_of_endMark final_kind, parse_of_endMark final_kind', ← tokens_same.length_eq]
  change (recasing same_end).Answers _ (query ⟨final⟩ _ _) (query ⟨final'⟩ _ _) at answers
  generalize query ⟨final⟩ (limit.getD (init ++ [final]).length) (init ++ [final]) = answer,
    query ⟨final'⟩ (limit.getD (init ++ [final]).length) (init' ++ [final']) = answer' at answers
  cases answers with
  | taken root root' rest rest' root_same rest_same =>
      refine .read _ _ ?_ (.some ⟨root_same.alike, root_same.tokens⟩)
      dsimp only
      rw [tokens_same.lexicalReports_eq, same_end.trailingReport?_eq rest_same]
  | stopped stop stop' stop_eq =>
      obtain rfl : stop' = stop := stop_eq
      cases stop' with
      | report report =>
          refine .read _ _ ?_ .none
          dsimp only
          rw [tokens_same.lexicalReports_eq]
      | silent => exact .read _ _ tokens_same.lexicalReports_eq .none
      | fault fault => exact .fault fault

end

/-! ## Fields -/

section

variable {tokens tokens' : List Token}

/-- The tokens are of one kind, and the same if they are names. -/
def SameName (token token' : Token) : Prop :=
  token'.kind = token.kind ∧ (token.isName = true → token' = token)

theorem Recasing.sameNames (same : Recasing tokens tokens')
    (lexed : ∀ token ∈ tokens, IsLexed token) (lexed' : ∀ token ∈ tokens', IsLexed token) :
    List.Forall₂ SameName tokens tokens' := by
  induction same with
  | nil => exact .nil
  | cons token_same _ ih =>
      obtain ⟨token_lexed, rest_lexed⟩ := List.forall_mem_cons.1 lexed
      obtain ⟨token_lexed', rest_lexed'⟩ := List.forall_mem_cons.1 lexed'
      refine .cons ⟨token_same.kind_eq, fun is_name => ?_⟩ (ih rest_lexed rest_lexed')
      refine token_same.eq_of_not_keyword ?_ (token_lexed'.before_eq.trans token_lexed.before_eq.symm)
      rw [beq_iff_eq.1 is_name]
      rfl

theorem takeWhile_sameName (same : List.Forall₂ SameName tokens tokens') (goes_on : Kind → Bool) :
    List.Forall₂ SameName (tokens.takeWhile fun token => goes_on token.kind)
      (tokens'.takeWhile fun token => goes_on token.kind) := by
  induction same with
  | nil => exact .nil
  | @cons token _ _ _ token_same _ ih =>
      rw [List.takeWhile_cons, List.takeWhile_cons, token_same.1]
      cases goes_on token.kind with
      | false => exact .nil
      | true => exact .cons token_same ih

theorem filter_isName_eq (same : List.Forall₂ SameName tokens tokens') :
    tokens'.filter Token.isName = tokens.filter Token.isName := by
  induction same with
  | nil => rfl
  | @cons token token' _ _ token_same _ ih =>
      obtain ⟨kind_eq, name_eq⟩ := token_same
      have is_name_eq : token'.isName = token.isName := by
        rw [Token.isName, Token.isName, kind_eq]
      rw [List.filter_cons, List.filter_cons, is_name_eq, ih]
      cases is_name : token.isName with
      | false => rfl
      | true => rw [name_eq is_name]

theorem fields_eq_of_identifiers {fields fields' : List FieldName}
    (identifiers_eq : fields'.map (·.identifier) = fields.map (·.identifier)) :
    fields' = fields := by
  refine (List.map_inj_right ?_).1 identifiers_eq
  rintro ⟨_⟩ ⟨_⟩ rfl
  rfl

/-- Looking up the fields finds the same. -/
theorem check_recased {root root' : Tree} (is_query : IsQuery root) (is_query' : IsQuery root')
    (same : Recasing root.tokens root'.tokens) (lexed : ∀ token ∈ root.tokens, IsLexed token)
    (lexed' : ∀ token ∈ root'.tokens, IsLexed token) (catalog : FieldCatalog) :
    catalog.check root' = catalog.check root := by
  have same_names := same.sameNames lexed lexed'
  have names_eq : root'.fieldNames = root.fieldNames := by
    apply fields_eq_of_identifiers
    rw [is_query.fieldNames_eq, is_query'.fieldNames_eq]
    exact filter_isName_eq same_names
  have selected_eq : root'.selectedFields = root.selectedFields := by
    apply fields_eq_of_identifiers
    rw [is_query.selectedFields_eq, is_query'.selectedFields_eq]
    exact filter_isName_eq (takeWhile_sameName same_names (· != .fromKw))
  rw [FieldCatalog.check, FieldCatalog.check, names_eq, selected_eq]

end
end Grammar

/-! ## Queries -/

namespace Query

/-- The queries say the same, and the same is said of them. -/
structure SaysSame (query query' : Query) : Prop where
  /-- The reports on the text. -/
  parseDiagnostics_eq : query'.parseDiagnostics = query.parseDiagnostics
  /-- The reports on the fields. -/
  fieldDiagnostics_eq : query'.fieldDiagnostics = query.fieldDiagnostics
  /-- The reports that are not hidden. -/
  diagnostics_eq : query'.diagnostics = query.diagnostics
  /-- Both are valid, or none is. -/
  isValid_eq : query'.isValid = query.isValid
  /-- The trees are of one shape, if there are any. -/
  root?_alike : Option.Rel Tree.Alike query.root? query'.root?
  /-- The canonical texts. -/
  format?_eq : query'.root?.map Tree.format? = query.root?.map Tree.format?

/-- Both texts have no answer for the same reason, or they say the same whatever catalogs their
fields are looked up in. -/
inductive SameAnswer : Except Grammar.Fault Query → Except Grammar.Fault Query → Prop where
  | fault (fault : Grammar.Fault) : SameAnswer (.error fault) (.error fault)
  | query (query query' : Query) : (∀ catalogs : List FieldCatalog,
      (catalogs.foldl validate query).SaysSame (catalogs.foldl validate query')) →
      SameAnswer (.ok query) (.ok query')

theorem saysSame_of_parts {query query' : Query}
    (parse_eq : query'.parseDiagnostics = query.parseDiagnostics)
    (field_eq : query'.fieldDiagnostics = query.fieldDiagnostics)
    (alike : Option.Rel Tree.Alike query.root? query'.root?)
    (format_eq : query'.root?.map Tree.format? = query.root?.map Tree.format?) :
    query.SaysSame query' := by
  have isSome_eq : query'.root?.isSome = query.root?.isSome := by
    generalize query.root? = root?, query'.root? = root?' at alike
    cases alike <;> rfl
  refine ⟨parse_eq, field_eq, ?_, ?_, alike, format_eq⟩
  · rw [diagnostics, diagnostics, parse_eq, field_eq]
  · rw [isValid, isValid, isSome_eq, parse_eq, field_eq]

/-- Words in another case make no difference: the tokens are of the same kinds at the same places,
and the same is reported, shown and written, or there is no answer for the same reason. -/
theorem parse_keywords_recased {source source' : String} (recased : KeywordsRecased source source') :
    List.Forall₂ Token.IsRecased (tokenize source) (tokenize source') ∧
      ∀ limit, SameAnswer (parse limit source) (parse limit source') := by
  have tokens_same := tokenize_recased recased
  refine ⟨tokens_same, fun limit => ?_⟩
  obtain ⟨init, final, tokens_eq, is_list, -⟩ := exists_tokenize_eq source
  obtain ⟨init', final', tokens_eq', is_list', -⟩ := exists_tokenize_eq source'
  rw [tokens_eq, tokens_eq'] at tokens_same
  obtain ⟨init_same, final_same⟩ := Grammar.Recasing.of_concat tokens_same
  have same_end : Grammar.SameEnd final final' := by
    refine ⟨final_same, ?_⟩
    rw [is_list.prev_eq, is_list'.prev_eq]
    exact init_same.getLast?
  have readings := Grammar.parse_recased same_end is_list.final_kind init_same limit
  rw [← tokens_eq, ← tokens_eq'] at readings
  rw [parse, parse]
  generalize reading_eq : Grammar.parse limit (tokenize source) = answer,
    reading_eq' : Grammar.parse limit (tokenize source') = answer' at readings
  cases readings with
  | fault fault => exact .fault fault
  | read reading reading' diagnostics_eq roots_same =>
      refine .query _ _ fun catalogs => ?_
      rw [foldl_validate _ rfl, foldl_validate _ rfl]
      obtain ⟨tokens, root?, diagnostics⟩ := reading
      obtain ⟨tokens', root?', diagnostics'⟩ := reading'
      obtain rfl : diagnostics' = diagnostics := diagnostics_eq
      cases roots_same with
      | none => exact saysSame_of_parts rfl rfl .none rfl
      | @some root root' root_same =>
          obtain ⟨is_query, lexed, -⟩ := Grammar.derivation_of_parse reading_eq rfl
          obtain ⟨is_query', lexed', -⟩ := Grammar.derivation_of_parse reading_eq' rfl
          obtain ⟨alike, root_same⟩ := root_same
          have checks_eq : ∀ catalog : FieldCatalog, catalog.check root' = catalog.check root :=
            Grammar.check_recased is_query is_query' root_same lexed lexed'
          refine saysSame_of_parts rfl ?_ (.some alike) ?_
          · simp only [Option.map_some, checks_eq]
          · have format_eq := format?_eq_of_alike is_query alike root_same.spellings_eq
            rw [Option.map_some, Option.map_some, format_eq]

/-- A query with a word behind it, with all its words in capital letters. -/
theorem parse_keywords_recased_capitals :
    KeywordsRecased "select id from workitems in" "SELECT id FROM WORKITEMS IN" ∧
      SameAnswer (parse none "select id from workitems in")
        (parse none "SELECT id FROM WORKITEMS IN") := by
  have recased : KeywordsRecased "select id from workitems in" "SELECT id FROM WORKITEMS IN" := by
    decide +kernel
  exact ⟨recased, (parse_keywords_recased recased).2 none⟩

end Query
end WorkItemQuery
