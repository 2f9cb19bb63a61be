import WorkItemQuery.Proofs.Grammar.Neighbours
import WorkItemQuery.Proofs.Query.Printing
import WorkItemQuery.Proofs.Query.Reports

/-!
# The layout of queries

A valid query says the same with other blanks between its tokens and inside its words of several
parts.
-/

namespace WorkItemQuery

/-! ## Tokens -/

/-- The tokens are of one kind, with the same text up to the blanks inside. -/
def Token.SameWord (token token' : Token) : Prop := token.IsRespelled token'.spelling

namespace Token.SameWord

variable {token token' : Token} (same : token.SameWord token')

include same

theorem kind_eq : token'.kind = token.kind := same.1

theorem canonicalSpelling_eq : token'.canonicalSpelling = token.canonicalSpelling := by
  have fixed : ∀ kind : Kind, kind ∈ Lexer.spacedWords → kind.canonicalText?.isSome = true := by
    decide
  obtain ⟨kind_eq, respells⟩ := same
  refine canonicalSpelling_congr kind_eq ?_
  rw [Lexer.Respells] at respells
  split at respells
  · rename_i kind_mem
    exact .inl (fixed _ kind_mem)
  · exact .inr (String.toList_inj.1 respells)

end Token.SameWord

/-- The end marks of all texts are the same word. -/
theorem Token.sameWord_of_ends {source source' : String} {init init' : List Token}
    {final final' : Token} (tokens_eq : tokenize source = init ++ [final])
    (tokens_eq' : tokenize source' = init' ++ [final']) : final.SameWord final' := by
  obtain ⟨line, column, offset, rfl⟩ := exists_endMark_of_tokenize tokens_eq
  obtain ⟨line', column', offset', rfl⟩ := exists_endMark_of_tokenize tokens_eq'
  exact ⟨rfl, rfl⟩

namespace Grammar

/-! ## Valid queries -/

/-- What is read without an error is the whole text. -/
theorem tokens_of_no_errors {init : List Token} {final : Token} (is_list : IsTokenList init final)
    {limit : Option Nat} {reading : Reading} {root : Tree}
    (parse_eq : parse limit (init ++ [final]) = .ok reading) (root_eq : reading.root? = some root)
    (no_errors : Diagnostic.hasErrors reading.diagnostics = false) : init = root.tokens := by
  obtain ⟨behind, rfl, -, diagnostics_eq⟩ :=
    exists_query_of_parse is_list.final_kind parse_eq root_eq
  rw [Diagnostic.hasErrors, diagnostics_eq, List.any_append, Bool.or_eq_false_iff] at no_errors
  obtain ⟨no_lexical, no_trailing⟩ := no_errors
  cases behind with
  | nil => exact List.append_nil _
  | cons token behind =>
      have token_kind : token.kind ≠ .endMark := is_list.no_end token (by simp)
      cases is_error : token.kind.isLexicalError with
      | true =>
          obtain ⟨report, report_eq, report_error⟩ := exists_lexicalReport is_error
          have token_mem : token ∈ root.tokens ++ token :: behind ++ [final] := by simp
          rw [List.any_eq_false] at no_lexical
          exact absurd report_error
            (no_lexical report (List.mem_filterMap.2 ⟨token, token_mem, report_eq⟩))
      | false =>
          rw [List.cons_append, trailingReport?, Context.current_of_cons,
            if_neg (by simp [token_kind, is_error])] at no_trailing
          cases no_trailing

/-- The tokens of a query are read where they stand. -/
theorem IsQuery.munches {source : String} {root : Tree} {final : Token} (is_query : IsQuery root)
    (tokens_eq : tokenize source = root.tokens ++ [final])
    (lexed : ∀ token ∈ root.tokens, IsLexed token) :
    Lexer.Munches 0 source.toList root.tokens := by
  refine (lexes_of_tokenize tokens_eq).munches fun token mem => ?_
  exact (lexed token mem).kind_eq.resolve_left
    fun kind_eq => is_query.joins.regular token mem (kind_eq ▸ by decide)

/-- A text with other blanks than the one that a query has been read from is read as its tokens. -/
theorem IsQuery.sameWords {source source' : String} {root : Tree} {final : Token}
    (is_query : IsQuery root) (tokens_eq : tokenize source = root.tokens ++ [final])
    (lexed : ∀ token ∈ root.tokens, IsLexed token)
    (respaces : Lexer.Respaces none root.tokens source'.toList) :
    ∃ init' final', tokenize source' = init' ++ [final'] ∧ final'.kind = .endMark ∧
      List.Forall₂ Token.SameWord root.tokens init' := by
  have joins := is_query.joins
  have apart : root.tokens.IsChain Token.MayFollow :=
    joins.apart.imp fun _ _ => MayPrecede.mayFollow
  have munches := is_query.munches tokens_eq lexed
  obtain ⟨spellings, scans, spelled⟩ := munches.exists_scans respaces apart joins.regular
  obtain ⟨init', final', tokens_eq', final_kind', rfl⟩ := scans.exists_tokenize_eq
  have same_words : List.Forall₂ (fun token token' => token.IsRespelled token'.spelling)
      root.tokens init' := List.forall₂_map_right_iff.1 spelled
  exact ⟨init', final', tokens_eq', final_kind', same_words⟩

end Grammar

/-! ## Queries -/

/-- The trees are of one shape, over the same words up to the blanks inside. -/
structure Tree.SameWords (tree tree' : Tree) : Prop where
  /-- The shapes. -/
  alike : Tree.Alike tree tree'
  /-- The tokens, in order. -/
  tokens : List.Forall₂ Token.SameWord tree.tokens tree'.tokens

namespace Query

/-- The second text is the first with other blanks between its tokens, and inside its words of
several parts. -/
def IsRespaced (source source' : String) : Prop :=
  Lexer.Respaces none (tokenize source).dropLast source'.toList

/-- A valid query is read from the word of a derivation tree, which is all of its text and keeps
within the limit. -/
theorem exists_root_of_isValid {limit : Option Nat} {source : String} {query : Query}
    (parse_eq : parse limit source = .ok query) (is_valid : query.isValid = true) :
    ∃ root final, query.root? = some root ∧ Grammar.IsQuery root ∧
      (∀ token ∈ root.tokens, IsLexed token) ∧ (∀ bound ∈ limit, root.nesting ≤ bound) ∧
        tokenize source = root.tokens ++ [final] := by
  cases reading_eq : Grammar.parse limit (tokenize source) with
  | error fault =>
      rw [parse, reading_eq] at parse_eq
      cases parse_eq
  | ok reading =>
      rw [parse, reading_eq] at parse_eq
      cases parse_eq
      rw [isValid] at is_valid
      simp only [Bool.and_eq_true, Bool.not_eq_true'] at is_valid
      obtain ⟨⟨is_some, no_errors⟩, -⟩ := is_valid
      obtain ⟨root, root_eq⟩ := Option.isSome_iff_exists.1 is_some
      obtain ⟨is_query, lexed, shallow⟩ := Grammar.derivation_of_parse reading_eq root_eq
      obtain ⟨init, final, tokens_eq, is_list, -⟩ := exists_tokenize_eq source
      obtain rfl := Grammar.tokens_of_no_errors is_list (tokens_eq ▸ reading_eq) root_eq no_errors
      exact ⟨root, final, root_eq, is_query, lexed, shallow, tokens_eq⟩

/-- A text with tokens of the kinds and of the canonical spellings of a query is read as a query of
the same shape, with the same canonical text. -/
theorem exists_parse_of_spellings {limit : Option Nat} {source : String} {root : Tree}
    {init : List Token} {final : Token} (is_query : Grammar.IsQuery root)
    (shallow : ∀ bound ∈ limit, root.nesting ≤ bound)
    (tokens_eq : tokenize source = init ++ [final]) (final_kind : final.kind = .endMark)
    (spellings_eq : init.map Token.canonicalSpelling = root.tokens.map Token.canonicalSpelling) :
    ∃ root' text, parse limit source = .ok ⟨source, tokenize source, some root', [], []⟩ ∧
      Tree.Alike root root' ∧ root'.tokens = init ∧ root.format? = some (.ok text) ∧
        root'.format? = some (.ok text) := by
  have kinds_eq : Tree.kindsOf init = Tree.kindsOf root.tokens := by
    have kinds_eq := congrArg (List.map Prod.fst) spellings_eq
    rwa [List.map_map, List.map_map] at kinds_eq
  obtain ⟨root', alike, rfl⟩ := Tree.exists_alike root kinds_eq
  have reading_eq := Grammar.parse_of_isQuery_within (is_query.alike alike) final_kind
    (alike.nesting_eq spellings_eq ▸ shallow)
  rw [← tokens_eq] at reading_eq
  obtain ⟨text, format_eq⟩ := is_query.exists_format?
  refine ⟨root', text, ?_, alike, rfl, format_eq, ?_⟩
  · rw [parse, reading_eq]
    rfl
  · rw [format?_eq_of_alike is_query alike spellings_eq, format_eq]

/-- The layout of a valid query makes no difference: with other blanks its text has the same tokens,
and it is read as the same query, with the same canonical text. -/
theorem parse_respaced {limit : Option Nat} {source source' : String} {query : Query}
    (parse_eq : parse limit source = .ok query) (is_valid : query.isValid = true)
    (respaced : IsRespaced source source') :
    List.Forall₂ Token.SameWord (tokenize source) (tokenize source') ∧
      ∃ query' root root' text, parse limit source' = .ok query' ∧ query'.isValid = true ∧
        query'.diagnostics = [] ∧ query.root? = some root ∧ query'.root? = some root' ∧
        root.SameWords root' ∧ root.format? = some (.ok text) ∧ root'.format? = some (.ok text) := by
  obtain ⟨root, final, root_eq, is_query, lexed, shallow, tokens_eq⟩ :=
    exists_root_of_isValid parse_eq is_valid
  rw [IsRespaced, tokens_eq, List.dropLast_concat] at respaced
  obtain ⟨init', final', tokens_eq', final_kind', same_words⟩ :=
    is_query.sameWords tokens_eq lexed respaced
  have spellings_eq : init'.map Token.canonicalSpelling =
      root.tokens.map Token.canonicalSpelling :=
    map_eq_of_forall₂ (fun _ _ same => same.canonicalSpelling_eq) same_words
  obtain ⟨root', text, parse_eq', alike, rfl, format_eq, format_eq'⟩ :=
    exists_parse_of_spellings is_query shallow tokens_eq' final_kind' spellings_eq
  refine ⟨?_, _, root, root', text, parse_eq', rfl, rfl, root_eq, rfl, ⟨alike, same_words⟩,
    format_eq, format_eq'⟩
  have ends_same := Token.sameWord_of_ends tokens_eq tokens_eq'
  rw [tokens_eq, tokens_eq']
  exact List.rel_append same_words (.cons ends_same .nil)

/-- A query on several lines, with its source over two of them. -/
theorem parse_respaced_lines :
    ∃ query query', parse none "select id from work items" = .ok query ∧ query.isValid = true ∧
      IsRespaced "select id from work items" "\tselect\x0cid\nfrom  work\r\nitems\n" ∧
      parse none "\tselect\x0cid\nfrom  work\r\nitems\n" = .ok query' ∧ query'.isValid = true := by
  have is_read : ((parse none "select id from work items").toOption.any isValid) = true := by
    decide +kernel
  have respaced : IsRespaced "select id from work items"
      "\tselect\x0cid\nfrom  work\r\nitems\n" := by
    have tokens_eq : (tokenize "select id from work items").dropLast =
        [⟨⟨.selectKw, 1, 1, 0, "select"⟩, []⟩, ⟨⟨.identifier, 1, 8, 7, "id"⟩, []⟩,
          ⟨⟨.fromKw, 1, 11, 10, "from"⟩, []⟩, ⟨⟨.workItemsKw, 1, 16, 15, "work items"⟩, []⟩] := by
      decide +kernel
    have words : Lexer.Reblanked "work items".toList "work\r\nitems".toList :=
      .letter 'w' _ _ rfl (.letter 'o' _ _ rfl (.letter 'r' _ _ rfl (.letter 'k' _ _ rfl
        (.blanks [' '] ['\r', '\n'] _ _ nofun nofun (by decide) (by decide) (.refl _)))))
    rw [IsRespaced, tokens_eq]
    exact .token none ['\t'] "select".toList _ _ _ (by decide) nofun rfl
      (.token _ ['\x0c'] "id".toList _ _ _ (by decide) (by decide) rfl
        (.token _ ['\n'] "from".toList _ _ _ (by decide) (by decide) rfl
          (.token _ [' ', ' '] "work\r\nitems".toList _ _ _ (by decide) (by decide) words
            (.gap _ ['\n'] (by decide)))))
  cases parse_eq : parse none "select id from work items" with
  | error fault =>
      rw [parse_eq] at is_read
      cases is_read
  | ok query =>
      rw [parse_eq] at is_read
      obtain ⟨-, query', root, root', text, parse_eq', is_valid', -⟩ :=
        parse_respaced parse_eq is_read respaced
      exact ⟨query, query', rfl, is_read, respaced, parse_eq', is_valid'⟩

end Query
end WorkItemQuery
