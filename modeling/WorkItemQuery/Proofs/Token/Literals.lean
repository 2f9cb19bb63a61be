import WorkItemQuery.Proofs.Token.Lexing
import WorkItemQuery.Proofs.Token.Scan

/-!
# String literals

A content is written as a literal by doubling its quotes and putting it between two quotes.  The
literal is read as one token with this content, whatever follows it but a further quote, and every
literal of a text is written in this way.
-/

namespace WorkItemQuery

namespace Token

/-- The text with every quote doubled. -/
def doubled (quote : Char) : List Char → List Char
  | [] => []
  | char :: text =>
    if char = quote then quote :: quote :: doubled quote text else char :: doubled quote text

/-- A content between quotes. -/
def closedText (quote : Char) (content : String) : String :=
  .ofList (quote :: doubled quote content.toList ++ [quote])

/-- A content behind a quote that is not closed. -/
def openText (quote : Char) (content : String) : String :=
  .ofList (quote :: doubled quote content.toList)

variable {quote : Char}

/-! ## Doubled quotes -/

theorem collapse_cons {char : Char} (not_quote : char ≠ quote) (text : List Char) :
    collapse quote (char :: text) = char :: collapse quote text := by
  cases text with
  | nil => rfl
  | cons next text => rw [collapse, if_neg fun both => not_quote both.1]

theorem collapse_doubled (quote : Char) (text : List Char) :
    collapse quote (doubled quote text) = text := by
  induction text with
  | nil => rfl
  | cons char text ih =>
      rw [doubled]
      split
      · rename_i is_quote
        rw [collapse, if_pos ⟨rfl, rfl⟩, ih, is_quote]
      · rename_i not_quote
        rw [collapse_cons not_quote, ih]

/-- Where every quote is doubled, making them single is undone by doubling them. -/
theorem doubled_collapse {body : List Char} (body_matches : (Rule.literalBody quote).Matches body) :
    doubled quote (collapse quote body) = body := by
  obtain ⟨parts, rfl, all_match⟩ := body_matches
  induction parts with
  | nil => rfl
  | cons part parts ih =>
      have rest_eq := ih fun part mem => all_match part (.tail _ mem)
      rw [List.flatten_cons]
      obtain ⟨char, rfl, char_ok⟩ | ⟨_, _, rfl, ⟨first, rfl, first_eq⟩, second, rfl, second_eq⟩ :=
        all_match part (.head _)
      · simp only [Bool.and_eq_true, bne_iff_ne] at char_ok
        rw [List.singleton_append, collapse_cons char_ok.1, doubled, if_neg char_ok.1, rest_eq]
      · obtain rfl := eq_of_beq first_eq
        obtain rfl := eq_of_beq second_eq
        rw [List.singleton_append, List.cons_append, List.singleton_append, collapse,
          if_pos ⟨rfl, rfl⟩, doubled, if_pos rfl, rest_eq]

/-- A content on one line can stand in a literal. -/
theorem literalBody_doubled_of_line {text : List Char} (one_line : '\n' ∉ text) :
    (Rule.literalBody quote).Matches (doubled quote text) := by
  induction text with
  | nil => exact Lexer.literalBody_nil
  | cons char text ih =>
      have rest_matches := ih fun mem => one_line (.tail _ mem)
      rw [doubled]
      split
      · exact Lexer.literalBody_doubled rest_matches
      · rename_i not_quote
        have not_newline : char ≠ '\n' := fun newline => one_line (newline ▸ .head _)
        exact Lexer.literalBody_cons not_quote not_newline rest_matches

/-! ## The content of a literal -/

theorem stringValue?_of_closed {token : Token} {body : List Char} (kind_eq : token.kind = .string)
    (text_eq : token.text.toList = quote :: body ++ [quote]) :
    token.stringValue? = some (.ofList (collapse quote body)) := by
  have body_eq : withoutClosing quote (body ++ [quote]) = body := by
    rw [withoutClosing, List.getLast?_concat, if_pos rfl, List.dropLast_concat]
  rw [stringValue?, kind_eq, text_eq, List.cons_append]
  simp only [body_eq]

theorem stringValue?_of_open {token : Token} {body : List Char} (kind_eq : token.kind = .openString)
    (text_eq : token.text.toList = quote :: body) :
    token.stringValue? = some (.ofList (collapse quote body)) := by
  rw [stringValue?, kind_eq, text_eq]

end Token

namespace Lexer

variable {text : List Char}

theorem exists_body_of_string (kind_eq : kindOf? text = some .string) :
    ∃ quote ∈ ['\'', '"'], ∃ body, text = quote :: body ++ [quote] ∧
      (Rule.literalBody quote).Matches body := by
  obtain closed | closed := matches_of_kindOf? Rule.string_mem kind_eq <;>
    obtain ⟨_, _, rfl, ⟨first, rfl, first_eq⟩, body, _, rfl, body_matches, last, rfl, last_eq⟩ :=
      closed <;>
    obtain rfl := eq_of_beq first_eq <;> obtain rfl := eq_of_beq last_eq
  · exact ⟨'\'', by decide, body, rfl, body_matches⟩
  · exact ⟨'"', by decide, body, rfl, body_matches⟩

theorem exists_body_of_openString (kind_eq : kindOf? text = some .openString) :
    ∃ quote ∈ ['\'', '"'], ∃ body, text = quote :: body ∧
      (Rule.literalBody quote).Matches body := by
  obtain opened | opened := matches_of_kindOf? Rule.openString_mem kind_eq <;>
    obtain ⟨_, body, rfl, ⟨first, rfl, first_eq⟩, body_matches⟩ := opened <;>
    obtain rfl := eq_of_beq first_eq
  · exact ⟨'\'', by decide, body, rfl, body_matches⟩
  · exact ⟨'"', by decide, body, rfl, body_matches⟩

end Lexer

open Lexer Token

/-- The first token of a text that begins with a text of its own kind. -/
theorem tokenize_append {kind : Kind} {text rest : String}
    (kind_eq : kindOf? text.toList = some kind) (not_trivia : kind.isTrivia = false)
    (unextended : Unextended text.toList rest.toList) :
    ∃ token tokens, tokenize (text ++ rest) = token :: tokens ∧ token.kind = kind ∧
      token.span = .sized 0 text.utf8ByteSize ∧ token.text = text := by
  rw [tokenize, String.toList_append, place_join_append kind_eq unextended, Piece.token?,
    Option.getD_some, if_neg (Bool.eq_false_iff.1 not_trivia), String.ofList_toList]
  exact ⟨_, _, rfl, rfl, rfl, rfl⟩

/-- A token of a text that is read by a rule has a text of its kind. -/
theorem kindOf?_of_mem_tokenize {source : String} {token : Token} (mem : token ∈ tokenize source)
    (known : token.kind ≠ .unrecognized) (not_end : token.kind ≠ .endMark) :
    kindOf? token.text.toList = some token.kind := by
  obtain ⟨init, final, tokens_eq, is_list, lexed⟩ := exists_tokenize_eq source
  rw [tokens_eq, List.mem_append, List.mem_singleton] at mem
  obtain init_mem | rfl := mem
  · exact (lexed token init_mem).kind_eq.resolve_left known
  · exact absurd is_list.final_kind not_end

/-- A content on one line comes back from its literal. -/
theorem exists_token_of_closedText {quote : Char} (mem : quote ∈ ['\'', '"']) {content rest : String}
    (one_line : '\n' ∉ content.toList) (not_quote : rest.toList.head? ≠ some quote) :
    ∃ token tokens, tokenize (closedText quote content ++ rest) = token :: tokens ∧
      token.kind = .string ∧ token.span = .sized 0 (closedText quote content).utf8ByteSize ∧
        token.text = closedText quote content ∧ token.stringValue? = some content := by
  have body_matches : (Rule.literalBody quote).Matches (doubled quote content.toList) :=
    literalBody_doubled_of_line one_line
  have text_eq : (closedText quote content).toList =
      quote :: doubled quote content.toList ++ [quote] := String.toList_ofList
  have unextended : Unextended (closedText quote content).toList rest.toList := by
    rw [text_eq]
    cases rest_eq : rest.toList with
    | nil => exact unextended_nil _
    | cons next more =>
        refine unextended_closed (alive_closed mem body_matches) ?_ more
        rintro rfl
        exact not_quote (by rw [rest_eq]; rfl)
  have kind_eq : kindOf? (closedText quote content).toList = some .string := by
    rw [text_eq]
    exact kindOf?_closed mem body_matches
  obtain ⟨token, tokens, tokens_eq, token_kind, span_eq, token_text⟩ :=
    tokenize_append kind_eq rfl unextended
  refine ⟨token, tokens, tokens_eq, token_kind, span_eq, token_text, ?_⟩
  rw [stringValue?_of_closed token_kind (token_text ▸ text_eq), collapse_doubled,
    String.ofList_toList]

/-- A closed literal of a text is the written form of its content. -/
theorem exists_content_of_string {source : String} {token : Token} (mem : token ∈ tokenize source)
    (is_string : token.kind = .string) : ∃ quote ∈ ['\'', '"'], ∃ content,
      token.stringValue? = some content ∧ token.text = closedText quote content := by
  have kind_eq := kindOf?_of_mem_tokenize mem (is_string ▸ nofun) (is_string ▸ nofun)
  rw [is_string] at kind_eq
  obtain ⟨quote, quote_mem, body, text_eq, body_matches⟩ := exists_body_of_string kind_eq
  refine ⟨quote, quote_mem, _, stringValue?_of_closed is_string text_eq, ?_⟩
  rw [closedText, String.toList_ofList, doubled_collapse body_matches, ← text_eq,
    String.ofList_toList]

theorem exists_content_of_openString {source : String} {token : Token}
    (mem : token ∈ tokenize source) (is_open : token.kind = .openString) :
    ∃ quote ∈ ['\'', '"'], ∃ content,
      token.stringValue? = some content ∧ token.text = openText quote content := by
  have kind_eq := kindOf?_of_mem_tokenize mem (is_open ▸ nofun) (is_open ▸ nofun)
  rw [is_open] at kind_eq
  obtain ⟨quote, quote_mem, body, text_eq, body_matches⟩ := exists_body_of_openString kind_eq
  refine ⟨quote, quote_mem, _, stringValue?_of_open is_open text_eq, ?_⟩
  rw [openText, String.toList_ofList, doubled_collapse body_matches, ← text_eq,
    String.ofList_toList]

/-- A content on one line comes back from its literal, in front of anything but a further quote.
And every literal of a text, closed or not, is the written form of its content. -/
theorem literals_round_trip :
    (∀ quote ∈ ['\'', '"'], ∀ content rest : String, '\n' ∉ content.toList →
      rest.toList.head? ≠ some quote → ∃ token tokens,
        tokenize (closedText quote content ++ rest) = token :: tokens ∧ token.kind = .string ∧
          token.span = .sized 0 (closedText quote content).utf8ByteSize ∧
          token.text = closedText quote content ∧ token.stringValue? = some content) ∧
    ∀ source, ∀ token ∈ tokenize source,
      (token.kind = .string → ∃ quote ∈ ['\'', '"'], ∃ content,
        token.stringValue? = some content ∧ token.text = closedText quote content) ∧
      (token.kind = .openString → ∃ quote ∈ ['\'', '"'], ∃ content,
        token.stringValue? = some content ∧ token.text = openText quote content) := by
  refine ⟨fun quote mem content rest one_line not_quote => ?_, fun source token mem => ⟨?_, ?_⟩⟩
  · exact exists_token_of_closedText mem one_line not_quote
  · exact exists_content_of_string mem
  · exact exists_content_of_openString mem

/-- A content with a quote inside. -/
theorem literals_round_trip_quote :
    closedText '\'' "it's" = "'it''s'" ∧ '\n' ∉ "it's".toList ∧ " x".toList.head? ≠ some '\'' ∧
      ∃ token tokens, tokenize (closedText '\'' "it's" ++ " x") = token :: tokens ∧
        token.kind = .string ∧ token.text = closedText '\'' "it's" ∧
          token.stringValue? = some "it's" := by
  have one_line : '\n' ∉ "it's".toList := by decide
  have not_quote : " x".toList.head? ≠ some '\'' := by decide
  obtain ⟨token, tokens, tokens_eq, kind_eq, -, text_eq, value_eq⟩ :=
    literals_round_trip.1 '\'' (.head _) "it's" " x" one_line not_quote
  exact ⟨by decide, one_line, not_quote, token, tokens, tokens_eq, kind_eq, text_eq, value_eq⟩

end WorkItemQuery
