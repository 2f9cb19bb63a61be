import WorkItemQuery.Proofs.Grammar.Acceptance
import WorkItemQuery.Proofs.Token.Places

/-!
# Where the first mistake is

Reading stops in front of the first token that no query could have at its place.  What comes before
it can always be completed to a query, since a production stops behind a start of its word only; and
with the token it cannot, since reading depends on nothing behind it.
-/

namespace WorkItemQuery
namespace Grammar

open WorkItemQuery.Tree (kindsOf)

/-! ## Starts of queries -/

theorem Viable.of_prefix {kinds longer : List Kind} (viable : Viable longer)
    (begins : kinds <+: longer) : Viable kinds := by
  obtain ⟨sentence, is_sentence, prefix_eq⟩ := viable
  exact ⟨sentence, is_sentence, begins.trans prefix_eq⟩

/-- What a derivation tree begins with is the start of a query. -/
theorem viable_of_isQuery {tree : Tree} (is_query : IsQuery tree) {taken more : List Token}
    (tokens_eq : tree.tokens = taken ++ more) : Viable (kindsOf taken) := by
  refine ⟨kindsOf tree.tokens, ⟨tree, is_query, rfl⟩, kindsOf more ++ [.endMark], ?_⟩
  rw [tokens_eq, Tree.kindsOf_append, List.append_assoc]

/-- The start of a query begins a derivation tree over its own tokens, with an end mark. -/
theorem Viable.exists_tree {taken : List Token} {kind : Kind}
    (viable : Viable (kindsOf taken ++ [kind])) :
    ∃ tree final rest, IsQuery tree ∧ final.kind = .endMark ∧
      tree.tokens ++ [final] = taken ++ rest ∧ nextKind rest = kind := by
  obtain ⟨sentence, is_sentence, more, kinds_eq⟩ := viable
  have tokens_kinds : kindsOf (taken ++ (kind :: more).map tokenOf) = sentence ++ [.endMark] := by
    have more_eq : kindsOf ((kind :: more).map tokenOf) = kind :: more := by
      simp [kindsOf, Function.comp_def]
    rw [Tree.kindsOf_append, more_eq, ← kinds_eq, List.append_assoc, List.singleton_append]
  obtain ⟨front, back, tokens_eq, front_eq, back_eq⟩ := List.map_eq_append_iff.1 tokens_kinds
  obtain ⟨final, rfl, final_kind⟩ := List.map_eq_singleton_iff.1 back_eq
  obtain ⟨tree, is_query, rfl⟩ := Sentence.exists_tree (by rwa [kindsOf, front_eq])
  exact ⟨tree, final, _, is_query, final_kind, tokens_eq.symm, rfl⟩

/-! ## The first misfit -/

/-- The first token with which the tokens before it do not begin a query. -/
def IsFirstMisfit (tokens : List Token) (index : Nat) : Prop :=
  index < tokens.length ∧ ¬ Viable (kindsOf (tokens.take (index + 1))) ∧
    ∀ earlier < index, Viable (kindsOf (tokens.take (earlier + 1)))

theorem IsFirstMisfit.unique {tokens : List Token} {index index' : Nat}
    (misfit : IsFirstMisfit tokens index) (misfit' : IsFirstMisfit tokens index') :
    index' = index := by
  obtain ⟨-, not_viable, earlier_viable⟩ := misfit
  obtain ⟨-, not_viable', earlier_viable'⟩ := misfit'
  apply Nat.le_antisymm
  · exact Nat.le_of_not_lt fun lt => not_viable (earlier_viable' index lt)
  · exact Nat.le_of_not_lt fun lt => not_viable' (earlier_viable index' lt)

theorem isFirstMisfit_of_append {taken rest : List Token} {token : Token}
    (viable : Viable (kindsOf taken)) (not_viable : ¬ Viable (kindsOf taken ++ [token.kind])) :
    IsFirstMisfit (taken ++ token :: rest) taken.length := by
  have take_eq : (taken ++ token :: rest).take (taken.length + 1) = taken ++ [token] := by
    rw [List.take_length_add_append]
    rfl
  refine ⟨by simp, ?_, fun earlier lt => ?_⟩
  · rw [take_eq, Tree.kindsOf_append]
    exact not_viable
  · rw [List.take_append_of_le_length lt]
    exact viable.of_prefix ((List.take_prefix ..).map _)

/-! ## The answer for a query -/

section

variable {ctx : Context} {depth : Nat} {taken rest : List Token} {token : Token}

/-- Tokens that can be the start of a query are read in one. -/
theorem Viable.exists_query_ok (viable : Viable (kindsOf taken ++ [token.kind])) :
    ∃ tree final rest', nextKind rest' = token.kind ∧ final.kind = .endMark ∧
      query ctx (tree.nesting + depth) (taken ++ rest') = .ok (tree, [final]) := by
  obtain ⟨tree, final, rest', is_query, final_kind, tokens_eq, next_eq⟩ := viable.exists_tree
  refine ⟨tree, final, rest', next_eq, final_kind, ?_⟩
  rw [← tokens_eq]
  exact query_of_isQuery is_query (Nat.le_add_right ..) final_kind

/-- The token that follows a query is a misfit, if reading the query does not depend on it. -/
theorem not_viable_of_again {root : Tree} (not_end : token.kind ≠ .endMark)
    (again : ∀ extra rest', nextKind rest' = token.kind →
      query ctx (extra + depth) (taken ++ rest') = .ok (root, rest')) :
    ¬ Viable (kindsOf taken ++ [token.kind]) := by
  intro viable
  obtain ⟨tree, final, rest', next_eq, final_kind, tree_eq⟩ := viable.exists_query_ok
  rw [again tree.nesting rest' next_eq] at tree_eq
  cases tree_eq
  exact not_end (next_eq.symm.trans final_kind)

/-- The token in front of which a reading stops is a misfit, if stopping does not depend on what
follows it. -/
theorem not_viable_of_again_error
    (again : ∀ extra rest', nextKind rest' = token.kind →
      ∃ stop, stop ≠ .fault .stalled ∧ query ctx (extra + depth) (taken ++ rest') = .error stop) :
    ¬ Viable (kindsOf taken ++ [token.kind]) := by
  intro viable
  obtain ⟨tree, final, rest', next_eq, -, tree_eq⟩ := viable.exists_query_ok
  obtain ⟨stop, -, error_eq⟩ := again tree.nesting rest' next_eq
  rw [error_eq] at tree_eq
  cases tree_eq

end

/-! ## Reports -/

/-- The problem of a token that marks a mistake in the text itself. -/
def lexicalProblem (kind : Kind) : Problem :=
  if kind = .openString then .unterminatedString else .unrecognizedToken

/-- Every token that marks a mistake in the text itself has one report, in order. -/
theorem lexicalReports_eq (tokens : List Token) :
    (tokens.filterMap lexicalReport?).map (fun report => (report.problem, report.span)) =
      (tokens.filter fun token => token.kind.isLexicalError).map fun token =>
        (lexicalProblem token.kind, token.span) := by
  induction tokens with
  | nil => rfl
  | cons token tokens ih =>
      by_cases is_error : token.kind.isLexicalError = true
      · have kinds : ∀ kind : Kind, kind.isLexicalError = true →
            kind = .openString ∨ kind = .unrecognized := by
          decide
        obtain ⟨report, report_eq, problem_eq⟩ : ∃ report, lexicalReport? token = some report ∧
            (report.problem, report.span) = (lexicalProblem token.kind, token.span) := by
          obtain kind_eq | kind_eq := kinds _ is_error <;>
            exact ⟨_, by rw [lexicalReport?, kind_eq], by rw [kind_eq]; rfl⟩
        rw [List.filterMap_cons_some report_eq, List.filter_cons_of_pos (by exact is_error),
          List.map_cons, List.map_cons, ih, problem_eq]
      · have no_report : lexicalReport? token = none :=
          lexicalReport?_eq_none_iff.2 (by simpa using is_error)
        rw [List.filterMap_cons_none no_report, List.filter_cons_of_neg (by exact is_error), ih]

/-- The offset behind the last token. -/
def lastStop (tokens : List Token) : Nat :=
  match tokens.getLast? with
  | none => 0
  | some token => token.span.stop

/-- What is reported on the first misfit of a token list, besides the mistakes in the text. -/
inductive IsVerdict (tokens : List Token) (misfit : Token) : List Diagnostic → Prop where
  /-- The misfit has its report already. -/
  | known : misfit.kind.isLexicalError = true → IsVerdict tokens misfit []
  /-- The report starts at the misfit. -/
  | misplaced (report : Diagnostic) : misfit.kind.isLexicalError = false →
      misfit.kind ≠ .endMark → report.span.start = misfit.offset →
      IsVerdict tokens misfit [report]
  /-- The query ends too early. -/
  | ended (report : Diagnostic) : misfit.kind = .endMark → report.problem = .unexpectedEof →
      report.span = .empty (lastStop tokens.dropLast) → IsVerdict tokens misfit [report]
  /-- The query ends before the innermost open parenthesis is closed. -/
  | unclosed (opened : Token) (report : Diagnostic) : misfit.kind = .endMark →
      IsInnermost opened tokens.dropLast → report.problem = .unclosedParen →
      report.span.start = opened.offset → report.span.stop = lastStop tokens.dropLast →
      IsVerdict tokens misfit [report]

theorem IsVerdict.length_le {tokens : List Token} {misfit : Token} {verdict : List Diagnostic}
    (is_verdict : IsVerdict tokens misfit verdict) : verdict.length ≤ 1 := by
  cases is_verdict <;> simp

section

variable {init : List Token} {final : Token}

theorem endOffset_of_isTokenList (is_list : IsTokenList init final) :
    Context.endOffset ⟨final⟩ = lastStop init := by
  rw [Context.endOffset, is_list.prev_eq]
  rfl

/-- No token starts behind the last one. -/
theorem start_le_last (is_list : IsTokenList init final) {token : Token}
    (mem : token ∈ init) : ∃ last, init.getLast? = some last ∧
      token.span.start ≤ last.span.start := by
  obtain rfl | ⟨front, last, rfl⟩ := List.eq_nil_or_concat init
  · cases mem
  rw [List.concat_eq_append] at mem is_list ⊢
  refine ⟨last, List.getLast?_concat .., ?_⟩
  obtain mem | mem := List.mem_append.1 mem
  · have stop_le := (List.pairwise_append.1 is_list.sorted).2.2 token mem last (.head _)
    exact Nat.le_trans token.span.start_le_stop stop_le
  · obtain rfl := List.mem_singleton.1 mem
    exact Nat.le_refl _

/-- What follows a query is reported from its first token on. -/
theorem isVerdict_trailing (is_list : IsTokenList init final) {token : Token}
    (mem : token ∈ init) (rest : List Token) :
    IsVerdict (init ++ [final]) token (trailingReport? ⟨final⟩ (token :: rest)).toList := by
  have not_end := is_list.no_end token mem
  rw [trailingReport?, Context.current_of_cons]
  by_cases is_error : token.kind.isLexicalError = true
  · rw [if_pos (.inr is_error)]
    exact .known is_error
  · obtain ⟨last, last_eq, start_le⟩ := start_le_last is_list mem
    rw [if_neg (by simp [not_end, is_error]), is_list.prev_eq, last_eq]
    exact .misplaced _ (by simpa using is_error) not_end (Nat.min_eq_left start_le)

/-- A reading that stops reports on the token in front of which it stops. -/
theorem isVerdict_of_stops (is_list : IsTokenList init final) {taken rest : List Token}
    {token : Token} (tokens_eq : init ++ [final] = taken ++ token :: rest)
    (no_end : ∀ token ∈ taken, token.kind ≠ .endMark) {stop : Stop}
    (stops : Stops ⟨final⟩ taken (token :: rest) stop) :
    ∃ verdict, IsVerdict (init ++ [final]) token verdict ∧
      readingOf ⟨final⟩ (init ++ [final]) (.error stop) =
        .ok ⟨init ++ [final], none, (init ++ [final]).filterMap lexicalReport? ++ verdict⟩ := by
  have taken_eq : token.kind = .endMark → taken = (init ++ [final]).dropLast := by
    intro token_kind
    obtain ⟨behind, rest_eq, init_eq⟩ :=
      exists_rest_of_no_endMark is_list.final_kind tokens_eq no_end
    cases behind with
    | nil => rw [List.dropLast_concat, init_eq, List.append_nil]
    | cons other behind =>
        obtain ⟨rfl, -⟩ := List.cons.inj rest_eq
        exact absurd token_kind (is_list.no_end token (by simp [init_eq]))
  have stop_eq : lastStop (init ++ [final]).dropLast = Context.endOffset ⟨final⟩ := by
    rw [endOffset_of_isTokenList is_list, List.dropLast_concat]
  cases stops with
  | silent is_error => exact ⟨[], .known is_error, by rw [readingOf, List.append_nil]⟩
  | misfit other behind report rest_eq no_error not_end span_eq =>
      obtain ⟨rfl, -⟩ := List.cons.inj rest_eq
      exact ⟨[report], .misplaced report no_error not_end (by rw [span_eq]; rfl), rfl⟩
  | ended report at_end problem_eq span_eq =>
      exact ⟨[report], .ended report at_end problem_eq (by rw [stop_eq, span_eq]), rfl⟩
  | unclosed opened report at_end innermost problem_eq start_eq report_stop_eq =>
      rw [taken_eq at_end] at innermost
      exact ⟨[report], .unclosed opened report at_end innermost problem_eq start_eq
        (by rw [stop_eq, report_stop_eq]), rfl⟩
  | inverted opened at_end innermost behind =>
      rw [taken_eq at_end, List.dropLast_concat] at innermost
      obtain ⟨front, back, init_eq, -⟩ := innermost
      have mem : opened ∈ init := by simp [init_eq]
      obtain ⟨last, last_eq, start_le⟩ := start_le_last is_list mem
      rw [endOffset_of_isTokenList is_list, lastStop, last_eq] at behind
      exact absurd behind (Nat.not_lt_of_le (Nat.le_trans start_le last.span.start_le_stop))

/-- What begins a query has a token behind it, be it the end mark. -/
theorem exists_misfit (final_kind : final.kind = .endMark) {taken rest more : List Token} {root : Tree}
    (tokens_eq : init ++ [final] = taken ++ rest) (is_query : IsQuery root)
    (word_eq : root.tokens = taken ++ more) :
    ∃ token rest', rest = token :: rest' ∧ ∀ token ∈ taken, token.kind ≠ .endMark := by
  have no_end : ∀ token ∈ taken, token.kind ≠ .endMark := fun token mem =>
    is_query.kind_ne_endMark token (by simp [word_eq, mem])
  obtain ⟨behind, rest_eq, -⟩ := exists_rest_of_no_endMark final_kind tokens_eq no_end
  cases rest with
  | nil => simp at rest_eq
  | cons token rest => exact ⟨token, rest, rfl, no_end⟩

/-- At the first misfit there is one verdict, since there is only one first misfit. -/
theorem isVerdict_at_misfit {tokens taken rest : List Token} {token : Token}
    {verdict : List Diagnostic} (tokens_eq : tokens = taken ++ token :: rest)
    (viable : Viable (kindsOf taken)) (not_viable : ¬ Viable (kindsOf taken ++ [token.kind]))
    (is_verdict : IsVerdict tokens token verdict) :
    ((∀ index, ¬ IsFirstMisfit tokens index) → verdict = []) ∧
      ∀ index misfit, IsFirstMisfit tokens index → tokens[index]? = some misfit →
        IsVerdict tokens misfit verdict := by
  have is_misfit : IsFirstMisfit tokens taken.length := by
    rw [tokens_eq]
    exact isFirstMisfit_of_append viable not_viable
  refine ⟨fun none_misfit => absurd is_misfit (none_misfit _), ?_⟩
  intro index misfit is_misfit' misfit_eq
  obtain rfl := is_misfit.unique is_misfit'
  rw [tokens_eq, List.getElem?_append_right (Nat.le_refl _), Nat.sub_self] at misfit_eq
  cases misfit_eq
  exact is_verdict

/-- A query with its end mark has no misfit. -/
theorem not_isFirstMisfit_of_isQuery {root : Tree} (is_query : IsQuery root)
    (final_kind : final.kind = .endMark) (index : Nat) :
    ¬ IsFirstMisfit (root.tokens ++ [final]) index := by
  have all_viable : Viable (kindsOf (root.tokens ++ [final])) := by
    rw [Tree.kindsOf_append]
    refine ⟨_, ⟨root, is_query, rfl⟩, ?_⟩
    simp [final_kind, kindsOf]
  rintro ⟨-, not_viable, -⟩
  exact not_viable (all_viable.of_prefix ((List.take_prefix ..).map _))

/-- The mistakes in the text have one report each, in order.  Behind them there is at most one more,
on the first token with which the tokens before it do not begin a query. -/
theorem parse_of_isTokenList (is_list : IsTokenList init final) :
    ∃ reading verdict, parse none (init ++ [final]) = .ok reading ∧
      reading.diagnostics = (init ++ [final]).filterMap lexicalReport? ++ verdict ∧
      ((∀ index, ¬ IsFirstMisfit (init ++ [final]) index) → verdict = []) ∧
      ∀ index misfit, IsFirstMisfit (init ++ [final]) index →
        (init ++ [final])[index]? = some misfit → IsVerdict (init ++ [final]) misfit verdict := by
  have final_kind := is_list.final_kind
  have outcome := reads_query (show Context.Closed ⟨final⟩ from final_kind)
    (init ++ [final]).length (init ++ [final]) (Nat.lt_succ_self _)
  have parse_eq : parse none (init ++ [final]) = readingOf ⟨final⟩ (init ++ [final])
      (query ⟨final⟩ (init ++ [final]).length (init ++ [final])) :=
    parse_of_endMark final_kind none
  generalize query ⟨final⟩ (init ++ [final]).length (init ++ [final]) = answer at outcome parse_eq
  cases outcome with
  | taken root taken rest tokens_eq holds again =>
      obtain ⟨is_query, rfl⟩ := holds
      obtain ⟨behind, rfl, init_eq⟩ :=
        exists_rest_of_no_endMark final_kind tokens_eq is_query.kind_ne_endMark
      refine ⟨_, _, parse_eq, rfl, ?_⟩
      cases behind with
      | nil =>
          have no_trailing : trailingReport? ⟨final⟩ [final] = none := if_pos (.inl final_kind)
          rw [List.nil_append, no_trailing]
          refine ⟨fun _ => rfl, fun index misfit is_misfit => ?_⟩
          rw [init_eq, List.append_nil] at is_misfit
          exact absurd is_misfit (not_isFirstMisfit_of_isQuery is_query final_kind index)
      | cons token behind =>
          have mem : token ∈ init := by simp [init_eq]
          have not_viable := not_viable_of_again (is_list.no_end token mem) again
          exact isVerdict_at_misfit tokens_eq
            (viable_of_isQuery is_query (List.append_nil _).symm) not_viable
            (isVerdict_trailing is_list mem _)
  | stopped stop taken rest tokens_eq stops completes again =>
      obtain ⟨root, more, is_query, word_eq⟩ := completes
      rw [List.nil_append] at word_eq stops
      obtain ⟨token, rest, rfl, no_end⟩ := exists_misfit final_kind tokens_eq is_query word_eq
      obtain ⟨verdict, is_verdict, reading_eq⟩ := isVerdict_of_stops is_list tokens_eq no_end stops
      exact ⟨_, verdict, parse_eq.trans reading_eq, rfl,
        isVerdict_at_misfit tokens_eq (viable_of_isQuery is_query word_eq)
          (not_viable_of_again_error again) is_verdict⟩

end

/-- The mistakes in a text have one report each, in order.  Behind them there is at most one more
report, and it is on the first token with which the tokens before it do not begin a query. -/
theorem parse_tokenize_reports (source : String) :
    ∃ reading lexical verdict, parse none (tokenize source) = .ok reading ∧
      reading.diagnostics = lexical ++ verdict ∧ verdict.length ≤ 1 ∧
      (lexical.map fun report => (report.problem, report.span)) =
        ((tokenize source).filter fun token => token.kind.isLexicalError).map (fun token =>
          (lexicalProblem token.kind, token.span)) ∧
      ((∀ index, ¬ IsFirstMisfit (tokenize source) index) → verdict = []) ∧
      ∀ index misfit, IsFirstMisfit (tokenize source) index →
        (tokenize source)[index]? = some misfit → IsVerdict (tokenize source) misfit verdict := by
  obtain ⟨init, final, tokens_eq, is_list, -⟩ := exists_tokenize_eq source
  rw [tokens_eq]
  obtain ⟨reading, verdict, parse_eq, reports_eq, located⟩ := parse_of_isTokenList is_list
  refine ⟨reading, _, verdict, parse_eq, reports_eq, ?_, lexicalReports_eq _, located⟩
  by_cases exists_misfit : ∃ index, IsFirstMisfit (init ++ [final]) index
  · obtain ⟨index, is_misfit⟩ := exists_misfit
    have is_verdict := located.2 index _ is_misfit (List.getElem?_eq_getElem is_misfit.1)
    exact is_verdict.length_le
  · rw [located.1 fun index is_misfit => exists_misfit ⟨index, is_misfit⟩]
    exact Nat.zero_le 1

end Grammar
end WorkItemQuery
