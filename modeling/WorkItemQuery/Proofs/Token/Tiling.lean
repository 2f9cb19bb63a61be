import WorkItemQuery.Proofs.Token.Lexing

/-!
# Tokens and gaps

The tokens of a text and the gaps between them make up the whole text.  The gaps are blank, and no
two stretches that were passed over touch each other, since they would have been one.
-/

namespace WorkItemQuery
namespace Lexer

/-- The text, which begins at the offset, consists of the tokens with blank gaps before, between and
behind them. -/
inductive Tiles : Nat → List Char → List Token → Prop where
  | gap (offset : Nat) (gap : List Char) : (∀ char ∈ gap, char ∈ gapChars) → Tiles offset gap []
  | token (offset : Nat) (gap rest : List Char) (token : Token) (tokens : List Token) :
      (∀ char ∈ gap, char ∈ gapChars) → token.offset = offset + bytes gap → token.text ≠ "" →
      Tiles token.span.stop rest tokens →
      Tiles offset (gap ++ (token.text.toList ++ rest)) (token :: tokens)

variable {offset : Nat} {text : List Char} {tokens : List Token}

theorem bytes_append (front back : List Char) : bytes (front ++ back) = bytes front + bytes back := by
  rw [bytes, String.ofList_append, String.utf8ByteSize_append]
  rfl

theorem bytes_cons (char : Char) (text : List Char) :
    bytes (char :: text) = char.utf8Size + bytes text := by
  rw [bytes, String.ofList_cons, String.utf8ByteSize_append, String.utf8ByteSize_singleton]
  rfl

theorem bytes_toList (text : String) : bytes text.toList = text.utf8ByteSize := by
  rw [bytes, String.ofList_toList]

theorem bytes_pos (not_nil : text ≠ []) : 0 < bytes text := by
  obtain ⟨char, text, rfl⟩ := List.exists_cons_of_ne_nil not_nil
  rw [bytes_cons]
  exact Nat.add_pos_left char.utf8Size_pos _

theorem lt_add_bytes (not_nil : text ≠ []) : offset < offset + bytes text :=
  Nat.lt_add_of_pos_right (bytes_pos not_nil)

/-- A gap may be made longer. -/
theorem Tiles.blank {gap : List Char} (only_gap : ∀ char ∈ gap, char ∈ gapChars)
    (tiles : Tiles (offset + bytes gap) text tokens) : Tiles offset (gap ++ text) tokens := by
  cases tiles with
  | gap _ more only_more =>
      exact .gap _ _ fun char mem => (List.mem_append.1 mem).elim (only_gap char) (only_more char)
  | token _ more rest token tokens only_more offset_eq not_empty tiles =>
      rw [← List.append_assoc]
      refine .token _ _ _ _ _ (fun char mem => ?_) ?_ not_empty tiles
      · exact (List.mem_append.1 mem).elim (only_gap char) (only_more char)
      · rw [offset_eq, bytes_append, Nat.add_assoc]

/-- A token's text is the stretch of the text that its span covers. -/
theorem Tiles.exists_slice (tiles : Tiles offset text tokens) {token : Token}
    (mem : token ∈ tokens) :
    token.text ≠ "" ∧ ∃ front back, text = front ++ token.text.toList ++ back ∧
      token.offset = offset + bytes front := by
  induction tiles with
  | gap => cases mem
  | token offset gap rest first tokens only_gap offset_eq not_empty tiles ih =>
      obtain _ | ⟨_, mem⟩ := mem
      · exact ⟨not_empty, gap, rest, by rw [List.append_assoc], offset_eq⟩
      · obtain ⟨text_not_empty, front, back, rfl, token_eq⟩ := ih mem
        refine ⟨text_not_empty, gap ++ (first.text.toList ++ front), back, by simp only [List.append_assoc], ?_⟩
        rw [token_eq, bytes_append, bytes_append, bytes_toList, ← Nat.add_assoc, ← Nat.add_assoc,
          ← offset_eq]
        rfl

/-! ## What is read -/

theorem gapChars_of_isTrivia {kind : Kind} {length : Nat} (munch : IsMunch text kind length)
    (is_trivia : kind.isTrivia = true) : ∀ char ∈ text.take length, char ∈ gapChars := by
  obtain ⟨rule, mem, rfl, accepts⟩ := munch.exists_rule
  intro char char_mem
  have char_uses := Pattern.uses_of_matches accepts char_mem
  cases kind_eq : rule.kind <;> rw [kind_eq] at is_trivia <;> cases is_trivia
  · rw [Rule.eq_of_kind_eq mem Rule.whitespace_mem kind_eq] at char_uses
    simp only [Pattern.oneOrMore, Pattern.uses, Bool.or_self, Rule.isBlank, Bool.or_eq_true,
      beq_iff_eq] at char_uses
    obtain ((rfl | rfl) | rfl) | rfl := char_uses <;> decide
  · rw [Rule.eq_of_kind_eq mem Rule.newline_mem kind_eq] at char_uses
    simp only [Pattern.literal, Pattern.exactly, Pattern.uses, Bool.or_eq_true, beq_iff_eq]
      at char_uses
    obtain rfl | rfl | rfl := char_uses <;> decide

theorem IsMunch.isToken {kind : Kind} {length : Nat} (munch : IsMunch text kind length)
    (not_trivia : kind.isTrivia = false) : kind.isToken = true := by
  have kinds : ∀ rule ∈ Rule.all, rule.kind.isTrivia = false → rule.kind.isToken = true := by
    decide
  obtain ⟨rule, mem, rfl, -⟩ := munch.exists_rule
  exact kinds rule mem not_trivia

theorem IsMunch.kind_ne_unrecognized {kind : Kind} {length : Nat} (munch : IsMunch text kind length) :
    kind ≠ .unrecognized := by
  have kinds : ∀ rule ∈ Rule.all, rule.kind ≠ .unrecognized := by
    decide
  obtain ⟨rule, mem, rfl, -⟩ := munch.exists_rule
  exact kinds rule mem

theorem IsMunch.not_isFailures {kind : Kind} {length other : Nat} (munch : IsMunch text kind length) :
    ¬ IsFailures text other := by
  obtain ⟨rule, mem, -, accepts⟩ := munch.exists_rule
  have no_failure : ∀ {other}, ¬ IsFailure text other := fun failure =>
    failure.rejects rule mem length munch.pos munch.le_length accepts
  rintro (⟨_, _, failure⟩ | ⟨_, _, _, failure, -⟩)
  · exact no_failure failure
  · exact no_failure failure

theorem IsFailures.le_length {length : Nat} (failures : IsFailures text length) :
    length ≤ text.length := by
  induction failures with
  | once text length failure => exact failure.le_length
  | again text length further failure failures ih =>
      have le := failure.le_length
      rw [List.length_drop] at ih
      omega

/-! ## The tokens that are read -/

section

variable {token : Token} {kind : Kind} {length : Nat}

theorem take_ne_nil (pos : 0 < length) (le : length ≤ text.length) : text.take length ≠ [] := by
  rw [← List.length_pos_iff, List.length_take_of_le le]
  exact pos

theorem IsTokenOf.stop_eq (is_token : IsTokenOf token kind offset text) :
    token.span.stop = offset + bytes text := by
  rw [bytes, ← is_token.text_eq, ← is_token.offset_eq]
  rfl

theorem IsTokenOf.text_ne_empty (is_token : IsTokenOf token kind offset text)
    (not_nil : text ≠ []) : token.text ≠ "" := by
  rw [is_token.text_eq]
  simpa using not_nil

/-- A token and what is read behind it. -/
theorem Tiles.cons (is_token : IsTokenOf token kind offset (text.take length)) (pos : 0 < length)
    (le : length ≤ text.length)
    (tiles : Tiles (offset + bytes (text.take length)) (text.drop length) tokens) :
    Tiles offset text (token :: tokens) := by
  have tiles_all := Tiles.token offset [] (text.drop length) token tokens nofun is_token.offset_eq
    (is_token.text_ne_empty (take_ne_nil pos le)) (by rwa [is_token.stop_eq])
  rwa [List.nil_append, is_token.text_eq, String.toList_ofList, List.take_append_drop] at tiles_all

end

/-- The tokens that a text is read as make it up, with blanks between them. -/
theorem Lexes.tiles (lexes : Lexes offset text tokens) : Tiles offset text tokens := by
  induction lexes with
  | done offset => exact .gap _ _ nofun
  | blank offset text kind length tokens munch is_trivia lexes ih =>
      have blank := ih.blank (gapChars_of_isTrivia munch is_trivia)
      rwa [List.take_append_drop] at blank
  | token offset text kind length token tokens munch not_trivia is_token lexes ih =>
      exact ih.cons is_token munch.pos munch.le_length
  | failures offset text length token tokens failures goes_on is_token lexes ih =>
      exact ih.cons is_token failures.pos failures.le_length

theorem Lexes.isToken (lexes : Lexes offset text tokens) : ∀ token ∈ tokens,
    token.kind.isToken = true ∧ token.kind.isTrivia = false ∧ token.before = [] := by
  induction lexes with
  | done => nofun
  | blank _ _ _ _ _ _ _ _ ih => exact ih
  | token offset text kind length token tokens munch not_trivia is_token lexes ih =>
      refine List.forall_mem_cons.2 ⟨?_, ih⟩
      rw [is_token.kind_eq]
      exact ⟨munch.isToken not_trivia, not_trivia, is_token.before_eq⟩
  | failures offset text length token tokens failures goes_on is_token lexes ih =>
      refine List.forall_mem_cons.2 ⟨?_, ih⟩
      rw [is_token.kind_eq]
      exact ⟨rfl, rfl, is_token.before_eq⟩

/-- Two tokens in the order of a text, which do not touch if both were passed over. -/
def InOrder (first second : Token) : Prop :=
  first.span.stop ≤ second.span.start ∧
    (first.kind = .unrecognized → second.kind = .unrecognized →
      first.span.stop ≠ second.span.start)

/-- The tokens stand in order behind the offset.  Where reading goes on, what is passed over next is
behind something else. -/
structure StandBehind (offset : Nat) (goes_on : Prop) (tokens : List Token) : Prop where
  /-- All are behind the offset. -/
  behind : ∀ token ∈ tokens, offset ≤ token.span.start
  /-- Something is read before the first that is passed over. -/
  apart : goes_on → ∀ token ∈ tokens, token.kind = .unrecognized → offset ≠ token.span.start
  /-- They are in order. -/
  sorted : tokens.Pairwise InOrder

theorem StandBehind.of_less {stop : Nat} {goes_on goes_on_first : Prop} (less : offset < stop)
    (stand : StandBehind stop goes_on tokens) : StandBehind offset goes_on_first tokens where
  behind token mem := Nat.le_trans (Nat.le_of_lt less) (stand.behind token mem)
  apart _ token mem _ := Nat.ne_of_lt (Nat.lt_of_lt_of_le less (stand.behind token mem))
  sorted := stand.sorted

/-- A token in front of those that are read behind it. -/
theorem StandBehind.cons {token : Token} {kind : Kind} {goes_on goes_on_first : Prop}
    (is_token : IsTokenOf token kind offset text) (not_nil : text ≠ [])
    (first_apart : goes_on_first → kind ≠ .unrecognized) (rest_apart : kind = .unrecognized → goes_on)
    (stand : StandBehind (offset + bytes text) goes_on tokens) :
    StandBehind offset goes_on_first (token :: tokens) := by
  have rest : StandBehind offset goes_on_first tokens := stand.of_less (lt_add_bytes not_nil)
  refine ⟨?_, fun goes_on => ?_, List.pairwise_cons.2 ⟨fun other mem => ?_, stand.sorted⟩⟩
  · exact List.forall_mem_cons.2 ⟨Nat.le_of_eq is_token.offset_eq.symm, rest.behind⟩
  · refine List.forall_mem_cons.2 ⟨fun unrecognized => ?_, rest.apart goes_on⟩
    exact absurd (is_token.kind_eq.symm.trans unrecognized) (first_apart goes_on)
  · rw [InOrder, is_token.stop_eq]
    refine ⟨stand.behind other mem, fun unrecognized => ?_⟩
    exact stand.apart (rest_apart (is_token.kind_eq.symm.trans unrecognized)) other mem

theorem Lexes.standBehind (lexes : Lexes offset text tokens) :
    StandBehind offset (GoesOn text) tokens := by
  induction lexes with
  | done offset => exact ⟨nofun, fun _ => nofun, .nil⟩
  | blank offset text kind length tokens munch is_trivia lexes ih =>
      exact ih.of_less (lt_add_bytes (take_ne_nil munch.pos munch.le_length))
  | token offset text kind length token tokens munch not_trivia is_token lexes ih =>
      exact ih.cons is_token (take_ne_nil munch.pos munch.le_length)
        (fun _ => munch.kind_ne_unrecognized) fun unrecognized =>
          absurd unrecognized munch.kind_ne_unrecognized
  | failures offset text length token tokens failures goes_on is_token lexes ih =>
      refine ih.cons is_token (take_ne_nil failures.pos failures.le_length) ?_ fun _ => goes_on
      rintro (rfl | ⟨kind, other, munch⟩)
      · exact absurd failures.le_length (Nat.not_le_of_lt failures.pos)
      · exact absurd failures munch.not_isFailures

end Lexer

open Lexer

section

variable {source : String} {init : List Token} {final : Token}

/-- Before its end mark a text is read from its start to its end. -/
theorem lexes_of_tokenize (tokens_eq : tokenize source = init ++ [final]) :
    Lexes 0 source.toList init := by
  obtain ⟨rfl, -⟩ := List.append_inj' tokens_eq rfl
  exact lexes_place {} source.toList

/-- Every token of a text covers some of it. -/
theorem start_lt_stop_of_tokenize (tokens_eq : tokenize source = init ++ [final]) :
    ∀ token ∈ init, token.span.start < token.span.stop := by
  intro token mem
  have not_empty := ((lexes_of_tokenize tokens_eq).tiles.exists_slice mem).1
  exact Nat.lt_add_of_pos_right (Nat.pos_of_ne_zero (mt String.utf8ByteSize_eq_zero_iff.1 not_empty))

end

/-- The tokens of a text and its end mark. -/
structure IsDivision (source : String) (init : List Token) (final : Token) : Prop where
  /-- The tokens and blank gaps make up the text. -/
  tiles : Tiles 0 source.toList init
  /-- The tokens are terminals, not blank, and remember nothing. -/
  tokens : ∀ token ∈ init, token.kind.isToken = true ∧ token.kind.isTrivia = false ∧
    token.prev? = none
  /-- A token has the text that its span covers, and some text. -/
  slices : ∀ token ∈ init, token.text ≠ "" ∧ ∃ front back, source = front ++ token.text ++ back ∧
    token.span.start = front.utf8ByteSize ∧ token.span.stop = (front ++ token.text).utf8ByteSize
  /-- The tokens are in order, and those that were passed over do not touch. -/
  sorted : init.Pairwise InOrder
  /-- The last token is an end mark at the end of the text, which remembers the token before it. -/
  end_mark : final.kind = .endMark ∧ final.text = "" ∧ final.offset = source.utf8ByteSize ∧
    final.prev? = init.getLast?

/-- Nothing of a text is lost between its tokens. -/
theorem tokenize_division (source : String) :
    ∃ init final, tokenize source = init ++ [final] ∧ IsDivision source init final := by
  have lexes := lexes_place {} source.toList
  refine ⟨_, _, rfl, lexes.tiles, fun token mem => ?_, fun token mem => ?_, lexes.standBehind.sorted,
    rfl, rfl, ?_, Token.prev?_endMark ..⟩
  · obtain ⟨is_token, not_trivia, before_eq⟩ := lexes.isToken token mem
    refine ⟨is_token, not_trivia, ?_⟩
    rw [Token.prev?, before_eq]
  · obtain ⟨not_empty, front, back, source_eq, offset_eq⟩ := lexes.tiles.exists_slice mem
    have start_eq : token.span.start = (String.ofList front).utf8ByteSize := by
      exact offset_eq.trans (Nat.zero_add _)
    refine ⟨not_empty, .ofList front, .ofList back, ?_, start_eq, ?_⟩
    · rw [← String.toList_inj, source_eq]
      simp
    · rw [String.utf8ByteSize_append, ← start_eq]
      rfl
  · have stop_eq := offset_afterAll {} source.toList
    rw [String.ofList_toList] at stop_eq
    exact stop_eq.trans (Nat.zero_add _)

end WorkItemQuery
