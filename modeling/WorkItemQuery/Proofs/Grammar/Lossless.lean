import WorkItemQuery.Proofs.Grammar.Misfit
import WorkItemQuery.Proofs.Grammar.Parts
import WorkItemQuery.Proofs.Grammar.Safety
import WorkItemQuery.Proofs.Tree.Spans

/-!
# No token is lost

The word of the tree that is read is what has been taken from the front of the tokens, and no longer
front of them is a query.  Read alone it gives the same tree.  Over the tokens of a text every node
of the tree covers its stretch of the text.
-/

namespace WorkItemQuery
namespace Grammar

open WorkItemQuery.Tree (kindsOf)

/-! ## The tokens that are taken -/

section

variable {ctx : Context} {limit : Nat} {tokens rest : List Token} {root : Tree}

/-- A query is read the same way wherever a token of the same kind comes behind it. -/
theorem query_again (closed : ctx.Closed) (query_eq : query ctx limit tokens = .ok (root, rest)) :
    ∀ extra rest', nextKind rest' = nextKind rest →
      query ctx (extra + max limit tokens.length) (root.tokens ++ rest') = .ok (root, rest') := by
  obtain ⟨-, tokens_eq, -⟩ := derivation_of_query_ok closed query_eq
  have wide_eq : query ctx (max limit tokens.length) tokens = .ok (root, rest) :=
    (Approximates.query (Nat.le_max_left ..) tokens (not_limited_of_ok query_eq)).trans query_eq
  have outcome := reads_query closed (max limit tokens.length) tokens
    (Nat.lt_succ_of_le (Nat.le_max_right ..))
  rw [wide_eq] at outcome
  cases outcome with
  | taken root taken rest tokens_eq' holds again =>
      obtain rfl : root.tokens = taken := List.append_cancel_right (tokens_eq.symm.trans tokens_eq')
      exact again

/-- A longer front of the tokens is no query. -/
theorem longest_of_query (closed : ctx.Closed)
    (query_eq : query ctx limit tokens = .ok (root, rest)) {front : List Token}
    (is_front : front <+: tokens) (sentence : Sentence (kindsOf front)) :
    front <+: root.tokens := by
  obtain ⟨-, tokens_eq, -⟩ := derivation_of_query_ok closed query_eq
  obtain ⟨tree, is_tree, tree_tokens⟩ := sentence.exists_tree
  refine List.prefix_of_prefix_length_le is_front ⟨rest, tokens_eq.symm⟩ (Nat.le_of_not_lt ?_)
  intro longer
  obtain ⟨more, front_eq⟩ := List.prefix_of_prefix_length_le ⟨rest, tokens_eq.symm⟩ is_front
    (Nat.le_of_lt longer)
  cases more with
  | nil => simp [← front_eq] at longer
  | cons token more =>
      have next_eq : nextKind rest = token.kind := by
        obtain ⟨behind, behind_eq⟩ := is_front
        rw [tokens_eq, ← front_eq, List.append_assoc] at behind_eq
        rw [← List.append_cancel_left behind_eq]
        rfl
      have not_end : token.kind ≠ .endMark := is_tree.kind_ne_endMark token (by
        simp [tree_tokens, ← front_eq])
      refine not_viable_of_again not_end (fun extra rest' same =>
        query_again closed query_eq extra rest' (same.trans next_eq.symm)) ?_
      have viable := viable_of_isQuery is_tree (tree_tokens.trans
        (show front = (root.tokens ++ [token]) ++ more by simp [← front_eq]))
      rwa [Tree.kindsOf_append] at viable

end

/-- Where the checked reading stands behind a query, and what it has reported. -/
theorem checked_root_of_query {init : List Token} {final : Token}
    (final_kind : final.kind = .endMark) {limit : Option Nat} {root : Tree} {rest : List Token}
    (query_eq : query ⟨final⟩ (limit.getD (init ++ [final]).length) (init ++ [final]) =
      .ok (root, rest)) :
    ∃ cursor : Checked.Cursor,
      Checked.root ⟨init ++ [final], limit⟩ (Checked.Source.start ⟨init ++ [final], limit⟩) =
        (.ok root, cursor) ∧
      cursor.reports = (init ++ [final]).filterMap lexicalReport? ++
        (trailingReport? ⟨final⟩ rest).toList ∧
      cursor.position = root.tokens.length := by
  let source : Checked.Source := ⟨init ++ [final], limit⟩
  have context_eq : source.context = ⟨final⟩ := by
    simp [source, Checked.Source.context]
  have concludes : Concludes source (Checked.root source source.start) _ :=
    root_concludes ⟨init, final, rfl, final_kind⟩
  have query_eq' : query source.context (source.allowed 0) source.tokens = .ok (root, rest) := by
    rw [context_eq]
    exact query_eq
  rw [query_eq'] at concludes
  change ∃ cursor : Checked.Cursor, Checked.root source source.start = _ ∧ _
  generalize Checked.root source source.start = answer at concludes ⊢
  cases concludes with
  | read root cursor rest rest_eq position_le faultless reports_eq =>
      rw [context_eq] at reports_eq
      refine ⟨cursor, rfl, reports_eq, ?_⟩
      obtain ⟨-, tokens_eq, -⟩ :=
        derivation_of_query_ok (show Context.Closed ⟨final⟩ from final_kind) query_eq
      have left_eq := congrArg List.length rest_eq
      have total_eq : source.tokens.length = root.tokens.length + rest.length :=
        (congrArg List.length tokens_eq).trans List.length_append
      rw [List.length_drop] at left_eq
      omega

/-! ## The answer -/

theorem withEndMark_idem (tokens : List Token) :
    withEndMark (withEndMark tokens) = withEndMark tokens := by
  obtain ⟨init, final, tokens_eq, final_kind⟩ := withEndMark_sealed none tokens
  dsimp only at tokens_eq
  rw [tokens_eq, withEndMark_of_endMark final_kind]

theorem parse_withEndMark (limit : Option Nat) (tokens : List Token) :
    parse limit (withEndMark tokens) = parse limit tokens := by
  rw [parse_eq_readingOf, parse_eq_readingOf, withEndMark_idem]

theorem exists_withEndMark_eq {tokens : List Token} (not_nil : tokens ≠ [])
    (no_end : ∀ token ∈ tokens, token.kind ≠ .endMark) :
    ∃ mark : Token, mark.kind = .endMark ∧ withEndMark tokens = tokens ++ [mark] := by
  have last_eq := List.getLast?_eq_some_getLast not_nil
  generalize tokens.getLast not_nil = last at last_eq
  refine ⟨.endMark last.line last.endColumn last.span.stop (some last), rfl, ?_⟩
  rw [withEndMark, last_eq]
  exact if_neg (no_end last (List.mem_of_getLast? last_eq))

section

variable {limit : Option Nat} {init : List Token} {final : Token} {reading : Reading} {root : Tree}

/-- The tree keeps what has been taken from the tokens, which is as much as can be. -/
structure IsLossless (limit : Option Nat) (init : List Token) (final : Token) (reading : Reading)
    (root : Tree) : Prop where
  /-- The reading stands behind the word of the tree, which is the front of the tokens, and has
  collected the reports of the answer. -/
  taken : ∃ cursor : Checked.Cursor,
    Checked.root ⟨init ++ [final], limit⟩ (Checked.Source.start ⟨init ++ [final], limit⟩) =
        (.ok root, cursor) ∧
      cursor.reports = reading.diagnostics ∧
      root.tokens = (init ++ [final]).take cursor.position ∧ cursor.position = root.tokens.length
  /-- Without a report all tokens have been taken. -/
  whole : reading.diagnostics = [] → root.tokens = init
  /-- What has been taken is a query. -/
  sentence : Sentence (kindsOf root.tokens)
  /-- No longer front of the tokens is one. -/
  longest : ∀ front, front <+: init ++ [final] → Sentence (kindsOf front) → front <+: root.tokens
  /-- Read alone, with any end mark, it gives the same tree and no report. -/
  again : ∀ mark : Token, mark.kind = .endMark →
    parse limit (root.tokens ++ [mark]) = .ok ⟨root.tokens ++ [mark], some root, []⟩
  /-- Read without an end mark, it gets one, and gives the same tree and no report. -/
  alone : parse limit root.tokens = .ok ⟨withEndMark root.tokens, some root, []⟩

/-- A token list with an end mark is read as a tree without loss, whatever the limit.  If it is the
token list of a text, every node of the tree covers its stretch of the text. -/
theorem parse_lossless (final_kind : final.kind = .endMark)
    (no_end : ∀ token ∈ init, token.kind ≠ .endMark)
    (parse_eq : parse limit (init ++ [final]) = .ok reading)
    (root_eq : reading.root? = some root) :
    IsLossless limit init final reading root ∧
      ∀ source, tokenize source = init ++ [final] → ∀ node ∈ root.preOrder, node.IsSpanned := by
  have closed : (⟨final⟩ : Context).Closed := final_kind
  obtain ⟨behind, init_eq, query_eq, reports_eq⟩ :=
    exists_query_of_parse final_kind parse_eq root_eq
  obtain ⟨is_query, -, shallow⟩ := derivation_of_query_ok closed query_eq
  have filled : root.tokens ≠ [] := IsPartOrToken.tokens_ne_nil (.inl (.query is_query))
  have within : ∀ bound ∈ limit, root.nesting ≤ bound := by
    rintro bound ⟨⟩
    exact shallow
  have again : ∀ mark : Token, mark.kind = .endMark →
      parse limit (root.tokens ++ [mark]) = .ok ⟨root.tokens ++ [mark], some root, []⟩ :=
    fun mark mark_kind => parse_of_isQuery_within is_query mark_kind within
  refine ⟨⟨?_, fun no_reports => ?_, ⟨root, is_query, rfl⟩, ?_, again, ?_⟩, ?_⟩
  · obtain ⟨cursor, checked_eq, collected_eq, position_eq⟩ :=
      checked_root_of_query final_kind query_eq
    refine ⟨cursor, checked_eq, collected_eq.trans reports_eq.symm, ?_, position_eq⟩
    rw [position_eq, init_eq, List.append_assoc, List.take_left]
  · have free_eq : parse none (init ++ [final]) = .ok reading := by
      obtain ⟨limited, -⟩ | same := parse_cases limit (init ++ [final])
      · rw [limited] at parse_eq
        cases parse_eq
      · exact same.symm.trans parse_eq
    exact (isQuery_of_parse final_kind no_end free_eq root_eq no_reports).2
  · exact fun front is_front sentence => longest_of_query closed query_eq is_front sentence
  · obtain ⟨mark, mark_kind, marked_eq⟩ := exists_withEndMark_eq filled is_query.kind_ne_endMark
    rw [← parse_withEndMark, marked_eq]
    exact again mark mark_kind
  · intro source source_eq node mem
    obtain ⟨init', final', tokens_eq, is_list, -⟩ := exists_tokenize_eq source
    obtain ⟨rfl, -⟩ := List.append_inj' (source_eq.symm.trans tokens_eq) rfl
    have in_order : InTextOrder init := is_list.sorted
    have node_part := is_query.isPart_of_mem node mem
    refine Tree.isSpanned_of_inTextOrder (in_order.of_infix ?_) node_part.tokens_ne_nil
      fun child child_mem => (node_part.children child child_mem).tokens_ne_nil
    exact (Tree.tokens_infix mem).trans (init_eq ▸ (List.prefix_append ..).isInfix)

/-- A query with a word behind it. -/
theorem parse_lossless_trailing :
    ∃ init final reading root, tokenize "select id from workitems where id in (1) x" = init ++ [final] ∧
      parse (some 0) (init ++ [final]) = .ok reading ∧ reading.root? = some root ∧
      reading.diagnostics ≠ [] ∧ IsLossless (some 0) init final reading root ∧
      ∀ node ∈ root.preOrder, node.IsSpanned := by
  have is_read : ((parse (some 0) (tokenize "select id from workitems where id in (1) x")).toOption.any
      fun reading => reading.root?.isSome && !reading.diagnostics.isEmpty) = true := by
    decide +kernel
  obtain ⟨init, final, tokens_eq, is_list, -⟩ :=
    exists_tokenize_eq "select id from workitems where id in (1) x"
  rw [tokens_eq] at is_read
  cases parse_eq : parse (some 0) (init ++ [final]) with
  | error fault =>
      rw [parse_eq] at is_read
      cases is_read
  | ok reading =>
      rw [parse_eq] at is_read
      obtain ⟨has_root, has_reports⟩ := Bool.and_eq_true_iff.1 is_read
      obtain ⟨root, root_eq⟩ := Option.isSome_iff_exists.1 has_root
      obtain ⟨lossless, spanned⟩ := parse_lossless is_list.final_kind is_list.no_end parse_eq root_eq
      exact ⟨init, final, reading, root, tokens_eq, parse_eq, root_eq, by simpa using has_reports,
        lossless, spanned _ tokens_eq⟩

end

end Grammar
end WorkItemQuery
