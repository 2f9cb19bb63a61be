import WorkItemQuery.Proofs.Token.Letters
import WorkItemQuery.Proofs.Token.Munch
import WorkItemQuery.Proofs.Token.Places

/-!
# What a text is read as

From left to right the longest start that a rule accepts is taken again and again, and makes a
token unless it is a blank.  Where no rule accepts any start the text is passed over, and all that
is passed over at once makes one token.
-/

namespace WorkItemQuery
namespace Lexer

/-- The number of bytes of a text. -/
def bytes (text : List Char) : Nat := (String.ofList text).utf8ByteSize

/-- Failures one behind another, up to a length of the text. -/
inductive IsFailures : List Char → Nat → Prop where
  | once (text : List Char) (length : Nat) : IsFailure text length → IsFailures text length
  | again (text : List Char) (length further : Nat) : IsFailure text length →
      IsFailures (text.drop length) further → IsFailures text (length + further)

/-- No failure comes next: the text is at its end, or a rule accepts a start of it. -/
def GoesOn (text : List Char) : Prop := text = [] ∨ ∃ kind length, IsMunch text kind length

/-- The token has the kind and the text, stands at the offset and remembers nothing. -/
structure IsTokenOf (token : Token) (kind : Kind) (offset : Nat) (text : List Char) : Prop where
  /-- The kind. -/
  kind_eq : token.kind = kind
  /-- The offset of the first byte. -/
  offset_eq : token.offset = offset
  /-- The text. -/
  text_eq : token.text = .ofList text
  /-- Nothing is remembered. -/
  before_eq : token.before = []

/-- The text, which begins at the offset, is read as the tokens. -/
inductive Lexes : Nat → List Char → List Token → Prop where
  | done (offset : Nat) : Lexes offset [] []
  | blank (offset : Nat) (text : List Char) (kind : Kind) (length : Nat) (tokens : List Token) :
      IsMunch text kind length → kind.isTrivia = true →
      Lexes (offset + bytes (text.take length)) (text.drop length) tokens →
      Lexes offset text tokens
  | token (offset : Nat) (text : List Char) (kind : Kind) (length : Nat) (token : Token)
      (tokens : List Token) :
      IsMunch text kind length → kind.isTrivia = false →
      IsTokenOf token kind offset (text.take length) →
      Lexes (offset + bytes (text.take length)) (text.drop length) tokens →
      Lexes offset text (token :: tokens)
  | failures (offset : Nat) (text : List Char) (length : Nat) (token : Token)
      (tokens : List Token) :
      IsFailures text length → GoesOn (text.drop length) →
      IsTokenOf token .unrecognized offset (text.take length) →
      Lexes (offset + bytes (text.take length)) (text.drop length) tokens →
      Lexes offset text (token :: tokens)

variable {text : List Char}

theorem IsFailures.pos {length : Nat} (failures : IsFailures text length) : 0 < length := by
  cases failures with
  | once _ _ failure => exact failure.pos
  | again _ _ _ failure => exact Nat.add_pos_left failure.pos _

/-! ## Pieces -/

/-- What the joined pieces of a text begin with. -/
inductive FirstPiece (text : List Char) : Prop where
  | munch (kind : Kind) (length : Nat) : IsMunch text kind length →
      join (pieces text) = ⟨some kind, text.take length⟩ :: join (pieces (text.drop length)) →
      FirstPiece text
  | failures (length : Nat) : IsFailures text length → GoesOn (text.drop length) →
      join (pieces text) = ⟨none, text.take length⟩ :: join (pieces (text.drop length)) →
      FirstPiece text

theorem firstPiece_of_ne_nil (not_nil : text ≠ []) : FirstPiece text := by
  obtain ⟨size, size_eq⟩ : ∃ size, text.length = size := ⟨_, rfl⟩
  induction size using Nat.strongRecOn generalizing text with
  | ind size ih =>
      obtain ⟨⟨kind?, length⟩, longest_eq⟩ : ∃ found, longest text = found := ⟨_, rfl⟩
      cases kind? with
      | some kind =>
          have munch := isMunch_of_longest longest_eq
          refine .munch kind length munch ?_
          rw [pieces_of_longest not_nil longest_eq munch.pos, join]
      | none =>
          have failure := isFailure_of_longest not_nil longest_eq
          have pieces_eq := pieces_of_longest not_nil longest_eq failure.pos
          have shorter : (text.drop length).length < size := by
            have pos := failure.pos
            have le := failure.le_length
            rw [List.length_drop]
            omega
          obtain rest_nil | rest_not_nil := Decidable.em (text.drop length = [])
          · refine .failures length (.once _ _ failure) (.inl rest_nil) ?_
            rw [pieces_eq, rest_nil]
            rfl
          · obtain ⟨kind, more, munch, join_eq⟩ | ⟨further, failures, goes_on, join_eq⟩ :=
              ih _ shorter rest_not_nil rfl
            · refine .failures length (.once _ _ failure) (.inr ⟨kind, more, munch⟩) ?_
              rw [pieces_eq, join, join_eq]
            · -- What is passed over here is joined with what is passed over behind it.
              refine .failures (length + further) (.again _ _ _ failure failures) ?_ ?_
              · rwa [← List.drop_drop]
              · rw [pieces_eq, join, join_eq, List.drop_drop, List.take_add]

theorem isTokenOf_token? (start : Place) (piece : Piece)
    (not_trivia : (piece.kind?.getD .unrecognized).isTrivia = false) :
    ∃ token, piece.token? start = some token ∧
      IsTokenOf token (piece.kind?.getD .unrecognized) start.offset piece.text := by
  refine ⟨_, if_neg (Bool.eq_false_iff.1 not_trivia), rfl, rfl, rfl, rfl⟩

/-- The tokens of a text are what it is read as. -/
theorem lexes_place (start : Place) (text : List Char) :
    Lexes start.offset text (place start (join (pieces text))) := by
  obtain ⟨size, size_eq⟩ : ∃ size, text.length = size := ⟨_, rfl⟩
  induction size using Nat.strongRecOn generalizing text start with
  | ind size ih =>
      obtain rfl | not_nil := Decidable.em (text = [])
      · exact .done _
      have rest_lexes : ∀ {length}, 0 < length →
          Lexes (start.offset + bytes (text.take length)) (text.drop length)
            (place (start.afterAll (text.take length)) (join (pieces (text.drop length)))) := by
        intro length pos
        have text_pos := List.length_pos_iff.2 not_nil
        have shorter : (text.drop length).length < size := by
          rw [List.length_drop]
          omega
        rw [bytes, ← offset_afterAll]
        exact ih _ shorter _ _ rfl
      cases firstPiece_of_ne_nil not_nil with
      | munch kind length munch join_eq =>
          rw [join_eq, place]
          cases trivia_eq : kind.isTrivia with
          | true =>
              rw [Piece.token?, Option.getD_some, if_pos trivia_eq]
              exact .blank _ _ kind length _ munch trivia_eq (rest_lexes munch.pos)
          | false =>
              obtain ⟨token, token_eq, is_token⟩ :=
                isTokenOf_token? start ⟨some kind, text.take length⟩ trivia_eq
              rw [token_eq]
              exact .token _ _ kind length token _ munch trivia_eq is_token (rest_lexes munch.pos)
      | failures length failures goes_on join_eq =>
          obtain ⟨token, token_eq, is_token⟩ :=
            isTokenOf_token? start ⟨none, text.take length⟩ rfl
          rw [join_eq, place, token_eq]
          exact .failures _ _ length token _ failures goes_on is_token (rest_lexes failures.pos)


/-! ## Texts that several rules accept -/

/-- The kinds of the rules behind that of names. -/
def behindNames : KindSet := .ofList [.digits, .variableRef, .whitespace, .newline]

theorem starts_behindNames : ∀ rule ∈ Rule.all, rule.kind ∈ behindNames →
    ∀ char ∈ '[' :: wordStarts, rule.pattern.starts char = true →
      (char == '[' || Rule.isNameStart char) = false := by
  decide +kernel

/-- No other rule accepts what is read as a name. -/
theorem IsMunch.kind_eq_identifier {length : Nat} (munch : IsMunch text .identifier length)
    {rule : Rule} (mem : rule ∈ Rule.all) (accepts : rule.pattern.Matches (text.take length)) :
    rule.kind = .identifier := by
  have later : Rule.all.Pairwise fun first second =>
      first.kind = .identifier → second.kind ∈ behindNames := by
    decide
  obtain ⟨before, name, behind, all_eq, name_kind, name_accepts, rejects⟩ := munch.first
  rw [all_eq, List.mem_append, List.mem_cons] at mem
  obtain earlier | rfl | behind_mem := mem
  · exact absurd accepts (rejects rule earlier)
  · exact name_kind
  · have all_mem : rule ∈ Rule.all := by
      rw [all_eq]
      exact List.mem_append_right _ (.tail _ behind_mem)
    have name_mem : name ∈ Rule.all := by
      rw [all_eq]
      exact List.mem_append_right _ (.head _)
    rw [all_eq, List.pairwise_append, List.pairwise_cons] at later
    have kind_mem := later.2.1.1 rule behind_mem name_kind
    -- The two rules differ in the first character.
    have not_nil : text.take length ≠ [] := by
      rw [← List.length_pos_iff, List.length_take_of_le munch.le_length]
      exact munch.pos
    obtain ⟨char, more, taken_eq⟩ := List.exists_cons_of_ne_nil not_nil
    rw [taken_eq] at accepts name_accepts
    rw [Rule.eq_of_kind_eq name_mem Rule.identifier_mem name_kind] at name_accepts
    have is_start : (char == '[' || Rule.isNameStart char) = true := by
      have starts := Pattern.starts_of_matches name_accepts
      simpa [Pattern.starts, Rule.bracketedName, Rule.bareName, Rule.namePart, Pattern.exactly,
        Pattern.nullable] using starts
    have char_mem : char ∈ '[' :: wordStarts := by
      obtain bracket | name_start := Bool.or_eq_true_iff.1 is_start
      · rw [eq_of_beq bracket]
        exact .head _
      · exact .tail _ (mem_wordStarts (.inl name_start))
    rw [starts_behindNames rule all_mem kind_mem char char_mem (Pattern.starts_of_matches accepts)]
      at is_start
    cases is_start

/-- Where a rule accepts a start of the text, something as long is read. -/
theorem exists_isMunch {rule : Rule} (mem : rule ∈ Rule.all) {shorter : Nat} (pos : 0 < shorter)
    (le : shorter ≤ text.length) (accepts : rule.pattern.Matches (text.take shorter)) :
    ∃ kind length, shorter ≤ length ∧ IsMunch text kind length := by
  obtain ⟨⟨kind?, length⟩, longest_eq⟩ : ∃ found, longest text = found := ⟨_, rfl⟩
  cases kind? with
  | none =>
      have not_nil : text ≠ [] := List.length_pos_iff.1 (Nat.lt_of_lt_of_le pos le)
      exact absurd accepts ((isFailure_of_longest not_nil longest_eq).rejects rule mem shorter pos le)
  | some kind =>
      have munch := isMunch_of_longest longest_eq
      exact ⟨kind, length, munch.longest rule mem shorter le accepts, munch⟩

/-! ## Words -/

end Lexer

namespace Pattern

/-- Every test of the pattern holds for a letter in both cases or in none. -/
def IsFolded : Pattern → Prop
  | .never => True
  | .done => True
  | .one accepts => ∀ char other, Rule.foldCase other = Rule.foldCase char →
      accepts char = true → accepts other = true
  | .either left right => left.IsFolded ∧ right.IsFolded
  | .andThen first second => first.IsFolded ∧ second.IsFolded
  | .many inner => inner.IsFolded

theorem IsFolded.matches {pattern : Pattern} (folded : pattern.IsFolded) {text other : List Char}
    (same : other.map Rule.foldCase = text.map Rule.foldCase) (accepts : pattern.Matches text) :
    pattern.Matches other := by
  induction pattern generalizing text other with
  | never => cases accepts
  | done =>
      obtain rfl : text = [] := accepts
      exact List.map_eq_nil_iff.1 same
  | one test =>
      obtain ⟨char, rfl, accepted⟩ := accepts
      obtain ⟨other_char, rfl, fold_eq⟩ := List.map_eq_singleton_iff.1 same
      exact ⟨other_char, rfl, folded _ _ fold_eq accepted⟩
  | either left right left_ih right_ih =>
      exact accepts.imp (left_ih folded.1 same) (right_ih folded.2 same)
  | andThen first second first_ih second_ih =>
      obtain ⟨front, back, rfl, first_accepts, second_accepts⟩ := accepts
      rw [List.map_append] at same
      obtain ⟨other_front, other_back, rfl, front_same, back_same⟩ := List.map_eq_append_iff.1 same
      exact ⟨other_front, other_back, rfl, first_ih folded.1 front_same first_accepts,
        second_ih folded.2 back_same second_accepts⟩
  | many inner ih =>
      obtain ⟨parts, rfl, all_accept⟩ := accepts
      induction parts generalizing other with
      | nil => exact ⟨[], List.map_eq_nil_iff.1 same, nofun⟩
      | cons part parts parts_ih =>
          rw [List.flatten_cons, List.map_append] at same
          obtain ⟨front, back, rfl, front_same, back_same⟩ := List.map_eq_append_iff.1 same
          obtain ⟨others, rfl, others_accept⟩ :=
            parts_ih (fun part mem => all_accept part (.tail _ mem)) back_same
          refine ⟨front :: others, rfl, List.forall_mem_cons.2 ⟨?_, others_accept⟩⟩
          exact ih folded front_same (all_accept part (.head _))

end Pattern

namespace Rule

theorem isFolded_word (text : String) : (word text).IsFolded := by
  have letter_folded : ∀ expected, (letter expected).IsFolded := by
    intro expected char other fold_eq accepted
    exact (congrArg (· == expected) fold_eq).trans accepted
  rw [word]
  induction text.toList with
  | nil => trivial
  | cons first rest ih =>
      cases rest with
      | nil => exact letter_folded first
      | cons next rest => exact ⟨letter_folded first, ih⟩

theorem isFolded_gap : (Pattern.one isGap).IsFolded := by
  intro char other fold_eq accepted
  rwa [← isGap_foldCase, fold_eq, isGap_foldCase]

theorem isFolded_of_keyword : ∀ rule ∈ keywordRules, rule.pattern.IsFolded := by
  have gaps_folded : gaps.IsFolded := isFolded_gap
  have more_folded : (Pattern.oneOrMore (.one isGap)).IsFolded := ⟨isFolded_gap, isFolded_gap⟩
  simp only [keywordRules, List.forall_mem_cons, Pattern.IsFolded, isFolded_word, gaps_folded,
    more_folded, and_self, List.not_mem_nil, false_implies, implies_true]

theorem not_formFeed_of_keyword {rule : Rule} (mem : rule ∈ keywordRules) {text : List Char}
    (accepts : rule.pattern.Matches text) : '\x0c' ∉ text := by
  have not_uses : ∀ rule ∈ keywordRules, rule.pattern.uses '\x0c' = false := by
    decide
  intro char_mem
  have char_uses := Pattern.uses_of_matches accepts char_mem
  rw [not_uses rule mem] at char_uses
  cases char_uses

end Rule

namespace Lexer

/-! ## Quotes -/

/-- The literal that is opened before the line is closed in it, behind the body, by a quote that is
not doubled. -/
structure IsClosed (quote : Char) (line body rest : List Char) : Prop where
  /-- The closing quote. -/
  line_eq : line = body ++ quote :: rest
  /-- Every quote of the body is doubled. -/
  body_matches : (Rule.literalBody quote).Matches body
  /-- The closing quote is not. -/
  single : rest.head? ≠ some quote

section

variable {quote : Char} {line : List Char}

theorem literalBody_nil : (Rule.literalBody quote).Matches [] := Pattern.nullable_iff.1 rfl

theorem literalBody_cons {char : Char} (not_quote : char ≠ quote) (not_newline : char ≠ '\n')
    (accepts : (Rule.literalBody quote).Matches line) :
    (Rule.literalBody quote).Matches (char :: line) :=
  Pattern.matches_many_cons.2
    ⟨[], line, rfl, .inl ⟨char, rfl, by simp [not_quote, not_newline]⟩, accepts⟩

theorem literalBody_doubled (accepts : (Rule.literalBody quote).Matches line) :
    (Rule.literalBody quote).Matches (quote :: quote :: line) := by
  have is_quote : (Pattern.exactly quote).Matches [quote] := ⟨quote, rfl, by simp⟩
  exact Pattern.matches_many_cons.2
    ⟨[quote], line, rfl, .inr ⟨[quote], [quote], rfl, is_quote, is_quote⟩, accepts⟩

/-- A literal is closed in its line, or the whole line is inside it. -/
theorem isClosed_or_literalBody : ∀ line : List Char, '\n' ∉ line →
    (∃ body rest, IsClosed quote line body rest) ∨ (Rule.literalBody quote).Matches line
  | [], _ => .inr literalBody_nil
  | [char], one_line => by
      obtain rfl | not_quote := Decidable.em (quote = char)
      · exact .inl ⟨[], [], rfl, literalBody_nil, nofun⟩
      · refine .inr (literalBody_cons (Ne.symm not_quote) (fun newline => ?_) literalBody_nil)
        exact one_line (newline ▸ .head _)
  | char :: next :: line, one_line => by
      have next_line : '\n' ∉ next :: line := fun mem => one_line (.tail _ mem)
      obtain rfl | not_quote := Decidable.em (quote = char)
      · obtain rfl | not_doubled := Decidable.em (quote = next)
        · obtain ⟨body, rest, rfl, body_matches, single⟩ | accepts :=
            isClosed_or_literalBody line fun mem => next_line (.tail _ mem)
          · exact .inl ⟨_, rest, rfl, literalBody_doubled body_matches, single⟩
          · exact .inr (literalBody_doubled accepts)
        · refine .inl ⟨[], next :: line, rfl, literalBody_nil, ?_⟩
          simpa using Ne.symm not_doubled
      · have not_newline : char ≠ '\n' := fun newline => one_line (newline ▸ .head _)
        obtain ⟨body, rest, line_eq, body_matches, single⟩ | accepts :=
          isClosed_or_literalBody (next :: line) next_line
        · refine .inl ⟨char :: body, rest, by rw [line_eq, List.cons_append], ?_, single⟩
          exact literalBody_cons (Ne.symm not_quote) not_newline body_matches
        · exact .inr (literalBody_cons (Ne.symm not_quote) not_newline accepts)

/-- Reading stays inside a literal over quotes that are doubled. -/
theorem alive_of_literalBody (not_newline : quote ≠ '\n') {body : List Char}
    (body_matches : (Rule.literalBody quote).Matches body) :
    alive (literalRules quote) body = literalRules quote := by
  obtain ⟨parts, rfl, all_match⟩ := body_matches
  induction parts with
  | nil => rfl
  | cons part parts ih =>
      have part_alive : alive (literalRules quote) part = literalRules quote := by
        obtain ⟨char, rfl, char_ok⟩ | ⟨_, _, rfl, ⟨first, rfl, first_eq⟩, second, rfl, second_eq⟩ :=
          all_match part (.head _)
        · simp only [Bool.and_eq_true, bne_iff_ne] at char_ok
          rw [alive_cons, advance_literalRules not_newline, if_neg char_ok.1, if_neg char_ok.2,
            alive_nil]
        · rw [eq_of_beq first_eq, eq_of_beq second_eq, List.singleton_append, alive_cons,
            advance_literalRules not_newline, if_pos rfl, alive_cons, advance_quotedRules,
            if_pos rfl, alive_nil]
      rw [List.flatten_cons, alive_append, part_alive, ih fun part mem => all_match part (.tail _ mem)]

/-- Behind the closing quote of a literal only a further quote could be read. -/
theorem alive_closed (mem : quote ∈ ['\'', '"']) {body : List Char}
    (body_matches : (Rule.literalBody quote).Matches body) :
    alive Rule.all (quote :: body ++ [quote]) = quotedRules quote := by
  obtain ⟨first_step, not_newline⟩ := advance_quote mem
  rw [List.cons_append, alive_cons, first_step, alive_append,
    alive_of_literalBody not_newline body_matches, alive_cons, advance_literalRules not_newline,
    if_pos rfl, alive_nil]

theorem kindOf?_closed (mem : quote ∈ ['\'', '"']) {body : List Char}
    (body_matches : (Rule.literalBody quote).Matches body) :
    kindOf? (quote :: body ++ [quote]) = some .string := by
  rw [kindOf?, alive_closed mem body_matches]
  rfl

/-- A literal that is closed in its line is read up to the closing quote. -/
theorem isMunch_string (mem : quote ∈ ['\'', '"']) {body rest behind : List Char}
    (closed : IsClosed quote line body rest) (line_end : behind.head?.all (· == '\n') = true) :
    IsMunch (quote :: line ++ behind) .string (body.length + 2) := by
  have not_newline := (advance_quote mem).2
  have alive_eq := alive_closed mem closed.body_matches
  have kind_eq := kindOf?_closed mem closed.body_matches
  have unextended : Unextended (quote :: body ++ [quote]) (rest ++ behind) := by
    cases rest_eq : rest ++ behind with
    | nil => exact unextended_nil _
    | cons char more =>
        have not_quote : char ≠ quote := by
          rintro rfl
          cases rest with
          | nil =>
              rw [List.nil_append] at rest_eq
              rw [rest_eq] at line_end
              exact not_newline (by simpa using line_end)
          | cons first rest => exact closed.single (congrArg List.head? rest_eq)
        exact unextended_closed alive_eq not_quote more
  have longest_eq := longest_of_kindOf? kind_eq (List.cons_ne_nil _ _) unextended
  have text_eq : quote :: line ++ behind = quote :: body ++ [quote] ++ (rest ++ behind) := by
    simp [closed.line_eq]
  have length_eq : (quote :: body ++ [quote]).length = body.length + 2 := by simp
  rw [text_eq, ← length_eq]
  exact isMunch_of_longest longest_eq

/-- A literal that is not closed in its line is read up to the end of the line. -/
theorem isMunch_openString (mem : quote ∈ ['\'', '"']) {behind : List Char}
    (one_line : '\n' ∉ line) (not_closed : ¬ ∃ body rest, IsClosed quote line body rest)
    (line_end : behind.head?.all (· == '\n') = true) :
    IsMunch (quote :: line ++ behind) .openString (line.length + 1) := by
  obtain ⟨first_step, not_newline⟩ := advance_quote mem
  have body_matches := (isClosed_or_literalBody line one_line).resolve_left not_closed
  have alive_eq : alive Rule.all (quote :: line) = literalRules quote := by
    rw [alive_cons, first_step, alive_of_literalBody not_newline body_matches]
  have kind_eq : kindOf? (quote :: line) = some .openString := by
    rw [kindOf?, alive_eq]
    rfl
  have unextended : Unextended (quote :: line) behind := by
    cases behind with
    | nil => exact unextended_nil _
    | cons char more =>
        obtain rfl : char = '\n' := by simpa using line_end
        refine unextended_of_dead ?_ more
        rw [alive_eq, advance_literalRules not_newline, if_neg not_newline.symm, if_pos rfl]
  exact isMunch_of_longest (longest_of_kindOf? kind_eq (List.cons_ne_nil _ _) unextended)

end

/-! ## All texts -/

/-- At each point of a text the longest start that a rule accepts is read, by the first rule that
accepts it, and nothing is passed over where there is one.  Words are read without regard to case,
and have no form feed inside.  A name is read only where no other rule accepts the same text.  A
quote begins a closed literal if the line has a quote behind it that is not doubled, and an open
literal up to the end of the line if not. -/
theorem tokenize_longest_match :
    (∀ source, ∃ init final, tokenize source = init ++ [final] ∧ final.kind = .endMark ∧
      Lexes 0 source.toList init) ∧
    (∀ text, ∀ rule ∈ Rule.all, ∀ shorter, 0 < shorter → shorter ≤ text.length →
      rule.pattern.Matches (text.take shorter) →
        ∃ kind length, shorter ≤ length ∧ IsMunch text kind length) ∧
    (∀ rule ∈ Rule.keywordRules, ∀ text other, rule.pattern.Matches text → '\x0c' ∉ text ∧
      (other.map Rule.foldCase = text.map Rule.foldCase → rule.pattern.Matches other)) ∧
    (∀ text length, IsMunch text .identifier length → ∀ rule ∈ Rule.all,
      rule.pattern.Matches (text.take length) → rule.kind = .identifier) ∧
    ∀ quote ∈ ['\'', '"'], ∀ line behind, '\n' ∉ line → behind.head?.all (· == '\n') = true →
      (∀ body rest, IsClosed quote line body rest →
        IsMunch (quote :: line ++ behind) .string (body.length + 2)) ∧
      ((¬ ∃ body rest, IsClosed quote line body rest) →
        IsMunch (quote :: line ++ behind) .openString (line.length + 1)) := by
  refine ⟨fun source => ⟨_, _, rfl, rfl, lexes_place {} source.toList⟩, ?_, ?_, ?_, ?_⟩
  · exact fun text rule mem shorter pos le accepts => exists_isMunch mem pos le accepts
  · intro rule mem text other accepts
    exact ⟨Rule.not_formFeed_of_keyword mem accepts,
      fun same => (Rule.isFolded_of_keyword rule mem).matches same accepts⟩
  · exact fun text length munch rule mem accepts => munch.kind_eq_identifier mem accepts
  · intro quote mem line behind one_line line_end
    exact ⟨fun body rest closed => isMunch_string mem closed line_end,
      fun not_closed => isMunch_openString mem one_line not_closed line_end⟩

/-- The start of a word is passed over as a whole, although a name could be read in it. -/
theorem unrecognized_inside_word :
    ¬ ∀ source front char behind, source.toList = front ++ char :: behind →
      (∃ token ∈ tokenize source, token.kind = .unrecognized ∧
        token.span.start ≤ bytes front ∧ bytes front < token.span.stop) →
      ∀ rule ∈ Rule.all, ∀ length, 0 < length → length ≤ (char :: behind).length →
        ¬ rule.pattern.Matches ((char :: behind).take length) := by
  intro holds
  have inside : ∃ token ∈ tokenize "\u017felx", token.kind = .unrecognized ∧
      token.span.start ≤ bytes ['\u017f'] ∧ bytes ['\u017f'] < token.span.stop := by
    decide +kernel
  have identifier_mem : ⟨.identifier, .either Rule.bracketedName Rule.bareName⟩ ∈ Rule.all := by
    simp [Rule.all, Rule.openRules]
  refine holds _ ['\u017f'] 'e' ['l', 'x'] (by decide) inside _ identifier_mem 3 (by decide)
    (by decide) (.inr ?_)
  exact ⟨_, [], rfl, ⟨['e'], ['l', 'x'], rfl, ⟨_, rfl, rfl⟩,
    [['l'], ['x']], rfl, by simp [Pattern.Matches, Rule.isNameRest]⟩, [], rfl, List.forall_mem_nil _⟩

end Lexer
end WorkItemQuery
