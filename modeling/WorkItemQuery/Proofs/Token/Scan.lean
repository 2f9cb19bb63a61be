import WorkItemQuery.Proofs.Token.Delimiters
import WorkItemQuery.Proofs.Token.Places

/-!
# Texts that are written token by token

A text that is written as tokens with blanks between them is read as these tokens, if nothing that
follows a token or a blank can be added to it.
-/

namespace WorkItemQuery

/-- What a token is apart from its place. -/
def Token.spelling (token : Token) : Kind × List Char := (token.kind, token.text.toList)

/-- What a token is apart from its place, in its canonical spelling. -/
def Token.canonicalSpelling (token : Token) : Kind × List Char :=
  (token.kind, token.canonicalText.toList)

/-- Tokens of one kind are printed alike if the kind has a fixed text or they have the same text. -/
theorem Token.canonicalSpelling_congr {token token' : Token} (kind_eq : token'.kind = token.kind)
    (same : token.kind.canonicalText?.isSome = true ∨ token'.text = token.text) :
    token'.canonicalSpelling = token.canonicalSpelling := by
  have text_eq : token'.canonicalText = token.canonicalText := by
    rw [canonicalText, canonicalText, kind_eq]
    obtain fixed | text_eq := same
    · obtain ⟨text, fixed_eq⟩ := Option.isSome_iff_exists.1 fixed
      rw [fixed_eq, Option.getD_some, Option.getD_some]
    · rw [text_eq]
  rw [canonicalSpelling, canonicalSpelling, kind_eq, text_eq]

namespace Lexer

/-- The text is written as tokens of some spellings, with blanks between them. -/
inductive Scans : List Char → List (Kind × List Char) → Prop where
  | nil : Scans [] []
  | token (kind : Kind) (text rest : List Char) (spellings : List (Kind × List Char)) :
      kindOf? text = some kind → kind.isTrivia = false → Unextended text rest →
      Scans rest spellings → Scans (text ++ rest) ((kind, text) :: spellings)
  | blank (kind : Kind) (text rest : List Char) (spellings : List (Kind × List Char)) :
      kindOf? text = some kind → kind.isTrivia = true → Unextended text rest →
      Scans rest spellings → Scans (text ++ rest) spellings

variable {kind : Kind} {text rest : List Char} {spellings : List (Kind × List Char)}

/-! ## Reading what is written -/

theorem ne_nil_of_kindOf? (kind_eq : kindOf? text = some kind) : text ≠ [] := by
  rintro rfl
  have no_kind : kindOf? [] = none := by decide
  rw [no_kind] at kind_eq
  cases kind_eq

/-- The first piece of a text is the text of a kind to which nothing can be added. -/
theorem pieces_append (kind_eq : kindOf? text = some kind) (unextended : Unextended text rest) :
    pieces (text ++ rest) = ⟨some kind, text⟩ :: pieces rest := by
  have longest_eq := longest_of_kindOf? kind_eq (ne_nil_of_kindOf? kind_eq) unextended
  have text_pos := List.length_pos_iff.2 (ne_nil_of_kindOf? kind_eq)
  have not_nil : text ++ rest ≠ [] := List.append_ne_nil_of_left_ne_nil (ne_nil_of_kindOf? kind_eq) rest
  rw [pieces_of_longest not_nil longest_eq text_pos, List.take_left, List.drop_left]

theorem place_join_append (kind_eq : kindOf? text = some kind)
    (unextended : Unextended text rest) (start : Place) :
    place start (join (pieces (text ++ rest))) =
      (Piece.token? start ⟨some kind, text⟩).toList ++
        place (start.afterAll text) (join (pieces rest)) := by
  rw [pieces_append kind_eq unextended, join]
  rfl

/-- The tokens of a written text have the spellings that it is written as. -/
theorem Scans.map_spelling_place (scans : Scans text spellings) (start : Place) :
    (place start (join (pieces text))).map Token.spelling = spellings := by
  induction scans generalizing start with
  | nil => rfl
  | token kind text rest spellings kind_eq not_trivia unextended scans ih =>
      rw [place_join_append kind_eq unextended, Piece.token?, Option.getD_some,
        if_neg (by simp [not_trivia]), List.map_append, ih]
      simp [Token.spelling]
  | blank kind text rest spellings kind_eq is_trivia unextended scans ih =>
      rw [place_join_append kind_eq unextended, Piece.token?, Option.getD_some, if_pos is_trivia]
      exact ih _

/-- What a written text is read as, with an end mark behind it. -/
theorem Scans.exists_tokenize_eq {source : String} (scans : Scans source.toList spellings) :
    ∃ init final, tokenize source = init ++ [final] ∧ final.kind = .endMark ∧
      init.map Token.spelling = spellings :=
  ⟨_, _, rfl, rfl, scans.map_spelling_place {}⟩

/-! ## Writing tokens -/

/-- The text is written as tokens, and it does not begin with a blank. -/
structure Begins (text : List Char) (spellings : List (Kind × List Char)) : Prop where
  /-- The text is written as tokens. -/
  scans : Scans text spellings
  /-- Its first character is no blank. -/
  not_blank : ∀ char rest, text = char :: rest → Rule.isBlank char = false

/-- What begins with a character of gaps is no token. -/
theorem isTrivia_of_gap {char : Char} (is_gap : char ∈ gapChars)
    (kind_eq : kindOf? (char :: text) = some kind) : kind.isTrivia = true := by
  have blanks : ∀ char ∈ gapChars, ∀ rule ∈ Rule.all,
      ∀ branch ∈ rule.pattern.branches, branch.starts char = true →
        rule.kind.isTrivia = true := by
    decide +kernel
  obtain ⟨rule, mem, rfl, accepts⟩ := exists_rule_of_kindOf? kind_eq
  obtain ⟨branch, branch_mem, accepts⟩ := Pattern.exists_branch accepts
  exact blanks char is_gap rule mem branch branch_mem (Pattern.starts_of_matches accepts)

/-- A token does not begin with a character of gaps. -/
theorem not_gap_of_kindOf? {first : Char} (kind_eq : kindOf? (first :: text) = some kind)
    (not_trivia : kind.isTrivia = false) : first ∉ gapChars := by
  intro is_gap
  rw [isTrivia_of_gap is_gap kind_eq] at not_trivia
  cases not_trivia

theorem mem_gapChars_of_isBlank {char : Char} (is_blank : Rule.isBlank char = true) :
    char ∈ gapChars := by
  simp only [Rule.isBlank, Bool.or_eq_true, beq_iff_eq] at is_blank
  obtain ((rfl | rfl) | rfl) | rfl := is_blank <;> decide

theorem Begins.token (kind_eq : kindOf? text = some kind) (not_trivia : kind.isTrivia = false)
    (unextended : Unextended text rest) (scans : Scans rest spellings) :
    Begins (text ++ rest) ((kind, text) :: spellings) := by
  refine ⟨.token kind text rest spellings kind_eq not_trivia unextended scans, ?_⟩
  intro char more text_eq
  cases text with
  | nil => exact absurd rfl (ne_nil_of_kindOf? kind_eq)
  | cons first text =>
      obtain ⟨rfl, -⟩ := List.cons.inj text_eq
      rw [Bool.eq_false_iff]
      exact fun is_blank => not_gap_of_kindOf? kind_eq not_trivia (mem_gapChars_of_isBlank is_blank)

/-- A blank stands before a token. -/
theorem Begins.blank (begins : Begins rest spellings) : Scans (' ' :: rest) spellings := by
  have kind_eq : kindOf? [' '] = some .whitespace := by decide
  refine .blank .whitespace [' '] rest spellings kind_eq rfl ?_ begins.scans
  cases rest with
  | nil => exact unextended_nil _
  | cons char rest =>
      have only_blanks : ∀ rule ∈ Rule.all, ∀ branch ∈ rule.pattern.branches,
          branch.starts ' ' = true → rule.kind = .whitespace := by
        decide +kernel
      refine unextended_cons fun rule mem more behind rest_eq accepts => ?_
      obtain ⟨branch, branch_mem, branch_accepts⟩ := Pattern.exists_branch accepts
      have kind_eq := only_blanks rule mem branch branch_mem
        (Pattern.starts_of_matches branch_accepts)
      obtain rfl := Rule.eq_of_kind_eq mem Rule.whitespace_mem kind_eq
      have char_uses := Pattern.uses_of_matches accepts
        (List.mem_append_right [' '] (List.mem_cons_self : char ∈ char :: more))
      have is_blank : Rule.isBlank char = true := by
        simpa [Pattern.oneOrMore, Pattern.uses] using char_uses
      rw [begins.not_blank char rest rfl] at is_blank
      cases is_blank

end Lexer

section

open Lexer

variable {token : Token} {rest : List Char} {spellings : List (Kind × List Char)}

/-- A word or mark of fixed text. -/
theorem Token.begins_fixed {text : String} (fixed : token.kind.canonicalText? = some text)
    (not_bracket : token.kind ≠ .leftBracket) (ends : Ends rest) (scans : Scans rest spellings) :
    Begins (token.canonicalText.toList ++ rest) (token.canonicalSpelling :: spellings) := by
  have not_trivia : ∀ kind : Kind, ∀ text ∈ kind.canonicalText?, kind.isTrivia = false := by decide
  have canonical_eq : token.canonicalText = text := by rw [canonicalText, fixed, Option.getD_some]
  rw [canonicalSpelling, canonical_eq]
  exact .token (closes_canonicalText _ not_bracket text fixed).1 (not_trivia _ text fixed)
    (unextended_canonicalText not_bracket fixed ends) scans

/-- The kinds of fixed text to which nothing can be added. -/
def selfClosing : KindSet := .ofList [.leftParen, .dot, .minus, .sourceKw, .targetKw]

/-- A parenthesis that opens, a dot, a minus or a side of a link, whatever follows it. -/
theorem Token.begins_selfClosing (closing : token.kind ∈ selfClosing)
    (scans : Scans rest spellings) :
    Begins (token.canonicalText.toList ++ rest) (token.canonicalSpelling :: spellings) := by
  have texts : ∀ kind : Kind, kind ∈ selfClosing → kind ≠ .leftBracket ∧ kind.isTrivia = false ∧
      ∃ text, kind.canonicalText? = some text ∧ ∀ rest, Unextended text.toList rest := by
    intro kind mem
    rw [selfClosing, KindSet.mem_ofList] at mem
    simp only [List.mem_cons, List.not_mem_nil, or_false] at mem
    obtain rfl | rfl | rfl | rfl | rfl := mem
    · exact ⟨nofun, rfl, _, rfl, unextended_mark (by decide)⟩
    · exact ⟨nofun, rfl, _, rfl, unextended_mark (by decide)⟩
    · exact ⟨nofun, rfl, _, rfl, unextended_mark (by decide)⟩
    · exact ⟨nofun, rfl, _, rfl, unextended_bracketed ['S', 'o', 'u', 'r', 'c', 'e']⟩
    · exact ⟨nofun, rfl, _, rfl, unextended_bracketed ['T', 'a', 'r', 'g', 'e', 't']⟩
  obtain ⟨not_bracket, not_trivia, text, fixed, unextended⟩ := texts _ closing
  have canonical_eq : token.canonicalText = text := by rw [canonicalText, fixed, Option.getD_some]
  rw [canonicalSpelling, canonical_eq]
  exact .token (closes_canonicalText _ not_bracket text fixed).1 not_trivia (unextended rest) scans

/-- A token whose text is kept as it was read. -/
theorem Token.begins_open (lexed : IsLexed token) (not_error : token.kind ≠ .unrecognized)
    (varies : token.kind.canonicalText? = none)
    (unextended : kindOf? token.text.toList = some token.kind →
      Unextended token.text.toList rest)
    (scans : Scans rest spellings) :
    Begins (token.canonicalText.toList ++ rest) (token.canonicalSpelling :: spellings) := by
  have canonical_eq : token.canonicalText = token.text := by
    rw [canonicalText, varies, Option.getD_none]
  have kind_eq := lexed.kind_eq.resolve_left not_error
  rw [canonicalSpelling, canonical_eq]
  exact .token kind_eq lexed.not_trivia (unextended kind_eq) scans

theorem Token.begins_name (lexed : IsLexed token) (name : token.kind = .identifier)
    (apart : Apart rest) (scans : Scans rest spellings) :
    Begins (token.canonicalText.toList ++ rest) (token.canonicalSpelling :: spellings) := by
  refine token.begins_open lexed (by rw [name]; nofun) (by rw [name]; rfl) ?_ scans
  intro kind_eq
  exact unextended_identifier (kind_eq.trans (by rw [name])) apart

theorem Token.begins_literal (lexed : IsLexed token)
    (literal : token.kind = .digits ∨ token.kind = .string ∨ token.kind = .variableRef)
    (ends : Ends rest) (scans : Scans rest spellings) :
    Begins (token.canonicalText.toList ++ rest) (token.canonicalSpelling :: spellings) := by
  refine token.begins_open lexed ?_ ?_ ?_ scans
  · obtain kind_eq | kind_eq | kind_eq := literal <;> rw [kind_eq] <;> nofun
  · obtain kind_eq | kind_eq | kind_eq := literal <;> rw [kind_eq] <;> rfl
  · intro text_kind
    obtain kind_eq | kind_eq | kind_eq := literal <;> rw [kind_eq] at text_kind
    · exact unextended_digits text_kind ends
    · exact unextended_string text_kind ends
    · exact unextended_variable text_kind ends

end

end WorkItemQuery
