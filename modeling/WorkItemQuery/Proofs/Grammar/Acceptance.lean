import WorkItemQuery.Grammar.Reading
import WorkItemQuery.Proofs.Grammar.Alike
import WorkItemQuery.Proofs.Grammar.Completeness

/-!
# What is accepted

A token list is read without a report exactly if it spells out a sentence of the grammar, and then
its tree is the only derivation tree of the sentence.
-/

namespace WorkItemQuery
namespace Grammar

open WorkItemQuery.Tree (kindsOf)

/-! ## The kind of a query -/

/-- The kind of the query that the kinds of tokens spell out. -/
def queryKind (kinds : List Kind) : Kind :=
  if .workItemsKw ∈ kinds then .flatSelect
  else if .recursiveKw ∈ kinds then .recursiveSelect
  else .oneHopSelect

theorem Balanced.notMem_kindsOf {tokens : List Token} (balanced : Balanced isInner tokens)
    {kind : Kind} (mem : kind ∈ queryWords) : kind ∉ kindsOf tokens := by
  have not_words : ∀ token ∈ tokens, token.kind ∉ queryWords := by
    have inner_kinds : ∀ kind : Kind, isInner kind = true → kind ∉ queryWords := by decide
    exact balanced.forall_mem inner_kinds (by decide) (by decide)
  intro mem_kinds
  obtain ⟨token, token_mem, rfl⟩ := List.mem_map.1 mem_kinds
  exact not_words token token_mem mem

theorem IsHead.mem_kindsOf_iff {source : Kind} {trees : List Tree} (is_head : IsHead source trees)
    {kind : Kind} (mem : kind ∈ queryWords) :
    kind ∈ kindsOf (Tree.tokensAll trees) ↔ kind = source := by
  obtain ⟨select, fields, origin, place, select_kind, is_fields, origin_kind, place_kind⟩ := is_head
  have not_fields := is_fields.balanced.notMem_kindsOf mem
  have not_words : kind ≠ .selectKw ∧ kind ≠ .fromKw := by
    constructor <;>
      · rintro rfl
        cases mem
  simp [select_kind, origin_kind, place_kind, not_fields, not_words]

theorem IsModeClause.mem_kindsOf {kind : Kind} {trees : List Tree}
    (is_clause : IsModeClause kind trees) :
    .workItemsKw ∉ kindsOf (Tree.tokensAll trees) ∧
      (.recursiveKw ∈ kindsOf (Tree.tokensAll trees) ↔ kind = .recursiveSelect) := by
  cases is_clause with
  | absent => simp
  | present kind word opened inside closed word_kind opened_kind is_mode closed_kind =>
      cases is_mode with
      | oneHop mode mem =>
          have kinds : ∀ kind : Kind, kind ∈ KindSet.linkMode →
              .workItemsKw ≠ kind ∧ .recursiveKw ≠ kind := by
            decide
          simp [word_kind, opened_kind, closed_kind, kinds _ mem]
      | recursive mode mode_kind => simp [word_kind, opened_kind, closed_kind, mode_kind]
      | matching mode comma matching mode_kind comma_kind matching_kind =>
          simp [word_kind, opened_kind, closed_kind, mode_kind, comma_kind, matching_kind]

theorem IsLinkClauses.mem_kindsOf {kind : Kind} {trees : List Tree}
    (is_clauses : IsLinkClauses kind trees) :
    .workItemsKw ∉ kindsOf (Tree.tokensAll trees) ∧
      (.recursiveKw ∈ kindsOf (Tree.tokensAll trees) ↔ kind = .recursiveSelect) := by
  have date_words : ∀ date, IsClause .asofKw IsDate date → ∀ kind ∈ queryWords,
      kind ∉ kindsOf (Tree.tokensAll date) := fun date is_date kind mem =>
    (balanced_dateClause is_date).notMem_kindsOf mem
  cases is_clauses with
  | dateFirst date mode is_date is_mode =>
      have not_date := date_words date is_date
      simp [not_date .workItemsKw (by decide), not_date .recursiveKw (by decide),
        is_mode.mem_kindsOf]
  | modeFirst mode date is_mode is_date =>
      have not_date := date_words date is_date
      simp [not_date .workItemsKw (by decide), not_date .recursiveKw (by decide),
        is_mode.mem_kindsOf]

/-- The words of a query make its kind. -/
theorem IsQuery.kind_eq {tree : Tree} (is_query : IsQuery tree) :
    tree.kind = queryKind (kindsOf tree.tokens) := by
  cases is_query with
  | flat head filter date is_head is_filter is_date =>
      have is_source : .workItemsKw ∈ kindsOf (Tree.tokensAll head) :=
        (is_head.mem_kindsOf_iff (by decide)).2 rfl
      simp [queryKind, is_source]
  | link kind head filter clauses is_head is_filter is_clauses =>
      have not_filter : ∀ kind ∈ queryWords, kind ∉ kindsOf (Tree.tokensAll filter) :=
        fun kind mem => is_filter.balanced.notMem_kindsOf mem
      have not_head : ∀ kind ∈ queryWords, kind ≠ .workItemLinksKw →
          kind ∉ kindsOf (Tree.tokensAll head) :=
        fun kind mem ne mem_head => ne ((is_head.mem_kindsOf_iff mem).1 mem_head)
      have recursive_iff := is_clauses.mem_kindsOf.2
      simp only [Tree.kind_node, Tree.tokens_node, Tree.tokensAll_append, Tree.kindsOf_append,
        List.mem_append, queryKind, not_filter .workItemsKw (by decide),
        not_head .workItemsKw (by decide) nofun, is_clauses.mem_kindsOf.1,
        not_filter .recursiveKw (by decide), not_head .recursiveKw (by decide) nofun, recursive_iff,
        or_self, if_false, false_or]
      obtain rfl | rfl := is_clauses.kind_eq <;> rfl

/-! ## Reading a token list -/

/-- The word of a derivation tree is read as that tree, whatever depth beyond the number of tokens
is allowed. -/
theorem query_of_derivation {ctx : Context} (closed : ctx.Closed) {depth : Nat} {tree : Tree}
    (is_query : IsQuery tree) {rest : List Token} (at_end : nextKind rest = .endMark)
    (enough : (tree.tokens ++ rest).length ≤ depth) :
    query ctx depth (tree.tokens ++ rest) = .ok (tree, rest) := by
  have deep_eq : query ctx (tree.nesting + depth) (tree.tokens ++ rest) = .ok (tree, rest) :=
    query_of_isQuery is_query (Nat.le_add_right ..) at_end
  have outcome := reads_query closed depth (tree.tokens ++ rest) (Nat.lt_succ_of_le enough)
  generalize query ctx depth (tree.tokens ++ rest) = answer at outcome
  cases outcome with
  | taken root taken rest' tokens_eq holds again =>
      have again_eq := again tree.nesting rest' rfl
      rw [← tokens_eq, deep_eq] at again_eq
      exact again_eq.symm ▸ rfl
  | stopped stop taken rest' tokens_eq stops completes again =>
      obtain ⟨stop', -, again_eq⟩ := again tree.nesting rest' rfl
      rw [← tokens_eq, deep_eq] at again_eq
      cases again_eq

/-- No two derivation trees have the same word. -/
theorem IsQuery.eq_of_tokens_eq {tree tree' : Tree} (is_query : IsQuery tree)
    (is_query' : IsQuery tree') (tokens_eq : tree'.tokens = tree.tokens) : tree' = tree := by
  have closed : (⟨tokenOf .endMark⟩ : Context).Closed := rfl
  have reads_tree := query_of_derivation closed is_query nextKind_nil (Nat.le_refl _)
  have reads_tree' := query_of_derivation closed is_query' nextKind_nil (Nat.le_refl _)
  rw [tokens_eq, reads_tree] at reads_tree'
  cases reads_tree'
  rfl

section

variable {init : List Token} {final : Token}

theorem withEndMark_of_endMark (final_kind : final.kind = .endMark) :
    withEndMark (init ++ [final]) = init ++ [final] := by
  rw [withEndMark, List.getLast?_append]
  simp [final_kind]

/-- The answer for a token list with an end mark, from the answer for its query. -/
def readingOf (ctx : Context) (tokens : List Token) :
    Except Stop (Tree × List Token) → Except Fault Reading
  | .ok (root, rest) =>
      .ok ⟨tokens, some root, tokens.filterMap lexicalReport? ++ (trailingReport? ctx rest).toList⟩
  | .error (.report diagnostic) =>
      .ok ⟨tokens, none, tokens.filterMap lexicalReport? ++ [diagnostic]⟩
  | .error .silent => .ok ⟨tokens, none, tokens.filterMap lexicalReport?⟩
  | .error (.fault fault) => .error fault

theorem parse_of_endMark (final_kind : final.kind = .endMark) (limit : Option Nat) :
    parse limit (init ++ [final]) =
      readingOf ⟨final⟩ (init ++ [final])
        (query ⟨final⟩ (limit.getD (init ++ [final]).length) (init ++ [final])) := by
  have final_eq : (init ++ [final]).getLast?.getD (.endMark 1 1 0 none) = final := by
    simp
  rw [parse, withEndMark_of_endMark final_kind, final_eq]
  cases query ⟨final⟩ (limit.getD (init ++ [final]).length) (init ++ [final]) with
  | ok answer => rfl
  | error stop => cases stop <;> rfl

theorem lexicalReport?_eq_none_iff {token : Token} :
    lexicalReport? token = none ↔ token.kind.isLexicalError = false := by
  rw [lexicalReport?]
  cases token.kind <;> simp [Kind.isLexicalError]

/-- Nothing is reported on an end mark. -/
theorem lexicalReports_concat (final_kind : final.kind = .endMark) :
    (init ++ [final]).filterMap lexicalReport? = init.filterMap lexicalReport? := by
  have no_report : lexicalReport? final = none :=
    lexicalReport?_eq_none_iff.2 (by rw [final_kind]; rfl)
  rw [List.filterMap_append, List.filterMap_cons_none no_report, List.filterMap_nil,
    List.append_nil]

/-- A sentence with an end mark is read as its derivation tree, and nothing is reported, whatever
limit the tree keeps within. -/
theorem parse_of_isQuery_within {tree : Tree} (is_query : IsQuery tree)
    (final_kind : final.kind = .endMark) {limit : Option Nat}
    (shallow : ∀ bound ∈ limit, tree.nesting ≤ bound) :
    parse limit (tree.tokens ++ [final]) = .ok ⟨tree.tokens ++ [final], some tree, []⟩ := by
  have query_eq : query ⟨final⟩ (limit.getD (tree.tokens ++ [final]).length)
      (tree.tokens ++ [final]) = .ok (tree, [final]) := by
    cases limit with
    | none => exact query_of_derivation final_kind is_query final_kind (Nat.le_refl _)
    | some bound => exact query_of_isQuery is_query (shallow bound rfl) final_kind
  have no_lexical : (tree.tokens ++ [final]).filterMap lexicalReport? = [] := by
    have plain_kinds : ∀ kind : Kind, isPlain kind = true → kind.isLexicalError = false := by decide
    have tokens_plain := is_query.balanced.forall_mem plain_kinds rfl rfl
    rw [lexicalReports_concat final_kind, List.filterMap_eq_nil_iff]
    exact fun token mem => lexicalReport?_eq_none_iff.2 (tokens_plain token mem)
  have no_trailing : trailingReport? ⟨final⟩ [final] = none := if_pos (.inl final_kind)
  rw [parse_of_endMark final_kind, query_eq, readingOf, no_lexical, no_trailing]
  rfl

theorem parse_of_isQuery {tree : Tree} (is_query : IsQuery tree)
    (final_kind : final.kind = .endMark) :
    parse none (tree.tokens ++ [final]) = .ok ⟨tree.tokens ++ [final], some tree, []⟩ :=
  parse_of_isQuery_within is_query final_kind nofun

/-- What has no end mark leaves the end mark behind it. -/
theorem exists_rest_of_no_endMark (final_kind : final.kind = .endMark) {taken rest : List Token}
    (tokens_eq : init ++ [final] = taken ++ rest)
    (no_end : ∀ token ∈ taken, token.kind ≠ .endMark) :
    ∃ behind, rest = behind ++ [final] ∧ init = taken ++ behind := by
  obtain ⟨behind, taken_eq, rest_eq⟩ | ⟨behind, init_eq, rest_eq⟩ :=
    List.append_eq_append_iff.1 tokens_eq
  · cases behind with
    | nil => exact ⟨[], by simpa using rest_eq.symm, by simpa using taken_eq.symm⟩
    | cons token behind =>
        obtain ⟨rfl, -⟩ := List.cons.inj rest_eq
        exact absurd final_kind (no_end _ (by simp [taken_eq]))
  · exact ⟨behind, rest_eq, init_eq⟩

theorem IsQuery.kind_ne_endMark {tree : Tree} (is_query : IsQuery tree) :
    ∀ token ∈ tree.tokens, token.kind ≠ .endMark := by
  have plain_kinds : ∀ kind : Kind, isPlain kind = true → kind ≠ .endMark := by decide
  exact is_query.balanced.forall_mem plain_kinds nofun nofun

/-- What is read without a report is the word of the tree. -/
theorem isQuery_of_parse (final_kind : final.kind = .endMark)
    (no_end : ∀ token ∈ init, token.kind ≠ .endMark) {reading : Reading} {root : Tree}
    (parse_eq : parse none (init ++ [final]) = .ok reading) (root_eq : reading.root? = some root)
    (no_reports : reading.diagnostics = []) : IsQuery root ∧ root.tokens = init := by
  have outcome := reads_query (show Context.Closed ⟨final⟩ from final_kind)
    (init ++ [final]).length (init ++ [final]) (Nat.lt_succ_self _)
  rw [parse_of_endMark final_kind, Option.getD_none] at parse_eq
  generalize query ⟨final⟩ (init ++ [final]).length (init ++ [final]) = answer at outcome parse_eq
  cases outcome with
  | stopped stop taken rest tokens_eq stops completes again =>
      cases stop <;> cases parse_eq <;> cases root_eq
  | taken tree taken rest tokens_eq holds again =>
      cases parse_eq
      cases root_eq
      obtain ⟨is_query, rfl⟩ := holds
      obtain ⟨behind, rfl, rfl⟩ :=
        exists_rest_of_no_endMark final_kind tokens_eq is_query.kind_ne_endMark
      obtain ⟨no_lexical, no_trailing⟩ := List.append_eq_nil_iff.1 no_reports
      refine ⟨is_query, ?_⟩
      cases behind with
      | nil => simp
      | cons token behind =>
          have token_kind : token.kind ≠ .endMark := no_end token (by simp)
          have token_error : token.kind.isLexicalError = false := by
            rw [← lexicalReport?_eq_none_iff]
            exact List.filterMap_eq_nil_iff.1 no_lexical token (by simp)
          have trailing : trailingReport? ⟨final⟩ (token :: behind ++ [final]) ≠ none := by
            rw [List.cons_append, trailingReport?, Context.current_of_cons,
              if_neg (by simp [token_kind, token_error])]
            nofun
          exact absurd (Option.toList_eq_nil_iff.1 no_trailing) trailing

/-- A token list with an end mark is read without a report exactly if it spells out a sentence.
The tree is then the only derivation tree of the sentence, of the kind that its words make. -/
theorem parse_accepts_iff_sentence (final_kind : final.kind = .endMark)
    (no_end : ∀ token ∈ init, token.kind ≠ .endMark) :
    ((∃ reading root, parse none (init ++ [final]) = .ok reading ∧ reading.root? = some root ∧
        reading.diagnostics = []) ↔ Sentence (kindsOf init)) ∧
      ∀ reading root, parse none (init ++ [final]) = .ok reading → reading.root? = some root →
        reading.diagnostics = [] →
        IsQuery root ∧ root.tokens = init ∧
          (∀ tree, IsQuery tree → tree.tokens = init → tree = root) ∧
          root.kind = queryKind (kindsOf init) := by
  refine ⟨⟨?_, ?_⟩, ?_⟩
  · rintro ⟨reading, root, parse_eq, root_eq, no_reports⟩
    obtain ⟨is_query, rfl⟩ :=
      isQuery_of_parse final_kind no_end parse_eq root_eq no_reports
    exact ⟨root, is_query, rfl⟩
  · intro sentence
    obtain ⟨tree, is_query, rfl⟩ := sentence.exists_tree
    exact ⟨_, tree, parse_of_isQuery is_query final_kind, rfl, rfl⟩
  · intro reading root parse_eq root_eq no_reports
    obtain ⟨is_query, rfl⟩ :=
      isQuery_of_parse final_kind no_end parse_eq root_eq no_reports
    exact ⟨is_query, rfl, fun tree is_tree tokens_eq => is_query.eq_of_tokens_eq is_tree tokens_eq,
      is_query.kind_eq⟩

/-- A query about links that names the recursive mode, with its date behind the mode. -/
theorem parse_accepts_iff_sentence_recursive :
    ∃ reading root, parse none ([tokenOf .selectKw, tokenOf .identifier, tokenOf .fromKw,
        tokenOf .workItemLinksKw, tokenOf .modeKw, tokenOf .leftParen, tokenOf .recursiveKw,
        tokenOf .rightParen, tokenOf .asofKw, tokenOf .string] ++ [tokenOf .endMark]) =
          .ok reading ∧ reading.root? = some root ∧ IsQuery root ∧ root.kind = .recursiveSelect := by
  have final_kind : (tokenOf .endMark).kind = .endMark := rfl
  have no_end : ∀ token ∈ [tokenOf .selectKw, tokenOf .identifier, tokenOf .fromKw,
      tokenOf .workItemLinksKw, tokenOf .modeKw, tokenOf .leftParen, tokenOf .recursiveKw,
      tokenOf .rightParen, tokenOf .asofKw, tokenOf .string], token.kind ≠ .endMark := by
    decide
  have accepts := parse_accepts_iff_sentence final_kind no_end
  obtain ⟨is_query, -, -, kind_eq⟩ := accepts.2 _ _ rfl rfl rfl
  exact ⟨_, _, rfl, rfl, is_query, kind_eq⟩

end

end Grammar
end WorkItemQuery
