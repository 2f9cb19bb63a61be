import WorkItemQuery.Proofs.Query.Respaced

/-!
# Sides of links in queries

A valid query says the same with some of its sides of links in brackets bare, if they stand apart
from the names around them.
-/

namespace WorkItemQuery

open Lexer (StandsApart Unbrackets)

/-! ## Tokens -/

/-- The tokens are of one kind, with the same text unless they are a side of a link. -/
def Token.SameSide (token token' : Token) : Prop := token.IsUnbracketed token'.spelling

/-- The token without its place, with its brackets if it is a side of a link. -/
def Token.bracketed (token : Token) : Token :=
  if token.kind ∈ KindSet.linkSide then token.canonical.unplaced else token.unplaced

namespace Token.SameSide

variable {token token' : Token} (same : token.SameSide token')

include same

theorem kind_eq : token'.kind = token.kind := same.1

theorem canonicalSpelling_eq : token'.canonicalSpelling = token.canonicalSpelling := by
  have fixed : ∀ kind : Kind, ∀ side ∈ kind.bareSide?, kind.canonicalText?.isSome = true := by
    decide
  refine canonicalSpelling_congr same.kind_eq ?_
  obtain text_eq | ⟨side, side_eq, -⟩ := same.2
  · exact .inr (String.toList_inj.1 text_eq)
  · exact .inl (fixed _ side side_eq)

theorem bracketed_eq (before_eq : token.before = []) (before_eq' : token'.before = []) :
    token'.bracketed = token.bracketed := by
  rw [bracketed, bracketed, same.kind_eq]
  split
  · rw [canonical_unplaced_eq before_eq, canonical_unplaced_eq before_eq',
      same.canonicalSpelling_eq]
  · rename_i not_side
    obtain text_eq | ⟨side, side_eq, -⟩ := same.2
    · have text_eq : token'.text = token.text := String.toList_inj.1 text_eq
      rw [unplaced_eq before_eq, unplaced_eq before_eq', spelling, spelling, same.kind_eq, text_eq]
    · exact absurd (Lexer.linkSide_of_bareSide _ side side_eq).1 not_side

end Token.SameSide

/-- The end marks of all texts are the same. -/
theorem Token.sameSide_of_ends {source source' : String} {init init' : List Token}
    {final final' : Token} (tokens_eq : tokenize source = init ++ [final])
    (tokens_eq' : tokenize source' = init' ++ [final']) : final.SameSide final' := by
  obtain ⟨line, column, offset, rfl⟩ := exists_endMark_of_tokenize tokens_eq
  obtain ⟨line', column', offset', rfl⟩ := exists_endMark_of_tokenize tokens_eq'
  exact ⟨rfl, .inl rfl⟩

theorem map_bracketed_eq {tokens tokens' : List Token}
    (same : List.Forall₂ Token.SameSide tokens tokens') (lexed : ∀ token ∈ tokens, IsLexed token)
    (lexed' : ∀ token ∈ tokens', IsLexed token) :
    tokens'.map Token.bracketed = tokens.map Token.bracketed := by
  induction same with
  | nil => rfl
  | cons token_same _ ih =>
      obtain ⟨token_lexed, rest_lexed⟩ := List.forall_mem_cons.1 lexed
      obtain ⟨token_lexed', rest_lexed'⟩ := List.forall_mem_cons.1 lexed'
      rw [List.map_cons, List.map_cons, ih rest_lexed rest_lexed',
        token_same.bracketed_eq token_lexed.before_eq token_lexed'.before_eq]

/-! ## Queries -/

namespace Query

/-- The second text is the first with some of its sides in brackets bare, where what stands before
and behind them allows it. -/
def IsUnbracketed (allowed : List Char → List Char → Prop) (source source' : String) : Prop :=
  Unbrackets allowed [] source.toList (tokenize source).dropLast source'.toList

/-- Sides of links that stand apart say the same without their brackets: the text has the same
tokens but for these, and is read as the same query, with the same canonical text. -/
theorem parse_unbracketed {limit : Option Nat} {source source' : String} {query : Query}
    (parse_eq : parse limit source = .ok query) (is_valid : query.isValid = true)
    (unbracketed : IsUnbracketed StandsApart source source') :
    List.Forall₂ Token.SameSide (tokenize source) (tokenize source') ∧
      ∃ query' root root' text, parse limit source' = .ok query' ∧ query'.isValid = true ∧
        query'.diagnostics = [] ∧ query.root? = some root ∧ query'.root? = some root' ∧
        root'.mapTokens Token.bracketed = root.mapTokens Token.bracketed ∧
        root.format? = some (.ok text) ∧ root'.format? = some (.ok text) := by
  obtain ⟨root, final, root_eq, is_query, lexed, shallow, tokens_eq⟩ :=
    exists_root_of_isValid parse_eq is_valid
  rw [IsUnbracketed, tokens_eq, List.dropLast_concat] at unbracketed
  have joins := is_query.joins
  obtain ⟨spellings, scans, spelled⟩ := unbracketed.exists_scans
    (is_query.munches tokens_eq lexed) (joins.apart.imp fun _ _ => Grammar.MayPrecede.borders)
    joins.regular
  obtain ⟨init', final', tokens_eq', is_list', lexed'⟩ := exists_tokenize_eq source'
  obtain ⟨init'', final'', tokens_eq'', -, rfl⟩ := scans.exists_tokenize_eq
  obtain ⟨rfl, -⟩ := List.append_inj' (tokens_eq'.symm.trans tokens_eq'') rfl
  have same_sides : List.Forall₂ (fun token token' => token.IsUnbracketed token'.spelling)
      root.tokens init' := List.forall₂_map_right_iff.1 spelled
  have spellings_eq : init'.map Token.canonicalSpelling =
      root.tokens.map Token.canonicalSpelling :=
    map_eq_of_forall₂ (fun _ _ same => Token.SameSide.canonicalSpelling_eq same) same_sides
  obtain ⟨root', text, parse_eq', alike, rfl, format_eq, format_eq'⟩ :=
    exists_parse_of_spellings is_query shallow tokens_eq' is_list'.final_kind spellings_eq
  refine ⟨?_, _, root, root', text, parse_eq', rfl, rfl, root_eq, rfl, ?_, format_eq, format_eq'⟩
  · have ends_same := Token.sameSide_of_ends tokens_eq tokens_eq'
    rw [tokens_eq, tokens_eq']
    exact List.rel_append same_sides (.cons ends_same .nil)
  · exact alike.mapTokens_eq (map_bracketed_eq same_sides lexed lexed')

/-- A side in parentheses, and a side behind a blank. -/
theorem parse_unbracketed_sides :
    ∃ query query',
      parse none "select a from workitemlinks where([source] .b=1)order by [target].[c]" =
        .ok query ∧ query.isValid = true ∧
      IsUnbracketed StandsApart
        "select a from workitemlinks where([source] .b=1)order by [target].[c]"
        "select a from workitemlinks where(Source .b=1)order by Target.[c]" ∧
      parse none "select a from workitemlinks where(Source .b=1)order by Target.[c]" = .ok query' ∧
        query'.isValid = true := by
  have is_read : ((parse none
      "select a from workitemlinks where([source] .b=1)order by [target].[c]").toOption.any
        isValid) = true := by
    decide +kernel
  have unbracketed : IsUnbracketed StandsApart
      "select a from workitemlinks where([source] .b=1)order by [target].[c]"
      "select a from workitemlinks where(Source .b=1)order by Target.[c]" := by
    have steps : Unbrackets StandsApart [] _ _ _ :=
      .kept [] [] _ _ ⟨⟨.selectKw, 1, 1, 0, "select"⟩, []⟩ _ nofun
      (.kept _ [' '] _ _ ⟨⟨.identifier, 1, 8, 7, "a"⟩, []⟩ _ (by decide)
      (.kept _ [' '] _ _ ⟨⟨.fromKw, 1, 10, 9, "from"⟩, []⟩ _ (by decide)
      (.kept _ [' '] _ _ ⟨⟨.workItemLinksKw, 1, 15, 14, "workitemlinks"⟩, []⟩ _ (by decide)
      (.kept _ [' '] _ _ ⟨⟨.whereKw, 1, 29, 28, "where"⟩, []⟩ _ (by decide)
      (.kept _ [] _ _ ⟨⟨.leftParen, 1, 34, 33, "("⟩, []⟩ _ nofun
      (.bare _ [] _ _ ⟨⟨.sourceKw, 1, 35, 34, "[source]"⟩, []⟩ _ "Source" nofun rfl (by decide)
        ⟨by decide, by decide⟩
      (.kept _ [' '] _ _ ⟨⟨.dot, 1, 44, 43, "."⟩, []⟩ _ (by decide)
      (.kept _ [] _ _ ⟨⟨.identifier, 1, 45, 44, "b"⟩, []⟩ _ nofun
      (.kept _ [] _ _ ⟨⟨.equals, 1, 46, 45, "="⟩, []⟩ _ nofun
      (.kept _ [] _ _ ⟨⟨.digits, 1, 47, 46, "1"⟩, []⟩ _ nofun
      (.kept _ [] _ _ ⟨⟨.rightParen, 1, 48, 47, ")"⟩, []⟩ _ nofun
      (.kept _ [] _ _ ⟨⟨.orderByKw, 1, 49, 48, "order by"⟩, []⟩ _ nofun
      (.bare _ [' '] _ _ ⟨⟨.targetKw, 1, 58, 57, "[target]"⟩, []⟩ _ "Target" (by decide) rfl
        (by decide) ⟨by decide, by decide⟩
      (.kept _ [] _ _ ⟨⟨.dot, 1, 66, 65, "."⟩, []⟩ _ nofun
      (.kept _ [] _ _ ⟨⟨.identifier, 1, 67, 66, "[c]"⟩, []⟩ _ nofun
      (.gap _ [] nofun))))))))))))))))
    rw [IsUnbracketed]
    convert steps using 1 <;> decide +kernel
  cases parse_eq : parse none
      "select a from workitemlinks where([source] .b=1)order by [target].[c]" with
  | error fault =>
      rw [parse_eq] at is_read
      cases is_read
  | ok query =>
      rw [parse_eq] at is_read
      obtain ⟨-, query', root, root', text, parse_eq', is_valid', -⟩ :=
        parse_unbracketed parse_eq is_read unbracketed
      exact ⟨query, query', rfl, is_read, unbracketed, parse_eq', is_valid'⟩

/-- Without its brackets a side right behind a word would be a part of the word. -/
theorem bare_side_fused :
    ¬ ∀ (limit : Option Nat) (source source' : String) (query : Query),
      parse limit source = .ok query → query.isValid = true →
      IsUnbracketed (fun _ _ => True) source source' →
      ∃ query', parse limit source' = .ok query' ∧ query'.isValid = true := by
  intro claim
  have is_read : ((parse none "SELECT [a] FROM WorkItemLinks WHERE[Source].[b] = 1").toOption.any
      isValid) = true := by
    decide +kernel
  have not_read : ((parse none "SELECT [a] FROM WorkItemLinks WHERESource.[b] = 1").toOption.any
      isValid) = false := by
    decide +kernel
  have unbracketed : IsUnbracketed (fun _ _ => True)
      "SELECT [a] FROM WorkItemLinks WHERE[Source].[b] = 1"
      "SELECT [a] FROM WorkItemLinks WHERESource.[b] = 1" := by
    have steps : Unbrackets (fun _ _ => True) [] _ _ _ :=
      .kept [] [] _ _ ⟨⟨.selectKw, 1, 1, 0, "SELECT"⟩, []⟩ _ nofun
      (.kept _ [' '] _ _ ⟨⟨.identifier, 1, 8, 7, "[a]"⟩, []⟩ _ (by decide)
      (.kept _ [' '] _ _ ⟨⟨.fromKw, 1, 12, 11, "FROM"⟩, []⟩ _ (by decide)
      (.kept _ [' '] _ _ ⟨⟨.workItemLinksKw, 1, 17, 16, "WorkItemLinks"⟩, []⟩ _ (by decide)
      (.kept _ [' '] _ _ ⟨⟨.whereKw, 1, 31, 30, "WHERE"⟩, []⟩ _ (by decide)
      (.bare _ [] _ _ ⟨⟨.sourceKw, 1, 36, 35, "[Source]"⟩, []⟩ _ "Source" nofun rfl (by decide)
        trivial
      (.kept _ [] _ _ ⟨⟨.dot, 1, 44, 43, "."⟩, []⟩ _ nofun
      (.kept _ [] _ _ ⟨⟨.identifier, 1, 45, 44, "[b]"⟩, []⟩ _ nofun
      (.kept _ [' '] _ _ ⟨⟨.equals, 1, 49, 48, "="⟩, []⟩ _ (by decide)
      (.kept _ [' '] _ _ ⟨⟨.digits, 1, 51, 50, "1"⟩, []⟩ _ (by decide)
      (.gap _ [] nofun))))))))))
    rw [IsUnbracketed]
    convert steps using 1 <;> decide +kernel
  cases parse_eq : parse none "SELECT [a] FROM WorkItemLinks WHERE[Source].[b] = 1" with
  | error fault =>
      rw [parse_eq] at is_read
      cases is_read
  | ok query =>
      rw [parse_eq] at is_read
      obtain ⟨query', parse_eq', is_valid'⟩ := claim none _ _ query parse_eq is_read unbracketed
      rw [parse_eq', Except.toOption, Option.any_some, is_valid'] at not_read
      cases not_read

end Query
end WorkItemQuery
