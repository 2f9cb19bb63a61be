import Mathlib.Data.List.Forall2
import Mathlib.Data.List.Pairwise
import WorkItemQuery.Proofs.Token.Letters
import WorkItemQuery.Proofs.Token.Tiling

/-!
# Letter case

No rule tells the two cases of a letter apart.  So texts that differ in the case of letters only
have tokens of the same kinds at the same places.
-/

namespace WorkItemQuery

/-! ## Patterns -/

namespace Pattern

/-- No test of the pattern tells the two cases of a letter apart. -/
def ignoresCase : Pattern → Bool
  | .never => true
  | .done => true
  | .one accepts => capitals.all fun char => accepts char.toLower == accepts char
  | .either left right => left.ignoresCase && right.ignoresCase
  | .andThen first second => first.ignoresCase && second.ignoresCase
  | .many inner => inner.ignoresCase

theorem ignoresCase_alt {left right : Pattern} (left_ignores : left.ignoresCase = true)
    (right_ignores : right.ignoresCase = true) : (left.alt right).ignoresCase = true := by
  unfold alt
  split <;> simp_all [ignoresCase]

theorem ignoresCase_seq {first second : Pattern} (first_ignores : first.ignoresCase = true)
    (second_ignores : second.ignoresCase = true) : (first.seq second).ignoresCase = true := by
  unfold seq
  split <;> simp_all [ignoresCase]

theorem ignoresCase_step {pattern : Pattern} (ignores : pattern.ignoresCase = true) (char : Char) :
    (pattern.step char).ignoresCase = true := by
  induction pattern with
  | never => rfl
  | done => rfl
  | one accepts =>
      rw [step]
      split <;> rfl
  | either left right left_ih right_ih =>
      obtain ⟨left_ignores, right_ignores⟩ := Bool.and_eq_true_iff.1 ignores
      exact ignoresCase_alt (left_ih left_ignores) (right_ih right_ignores)
  | andThen first second first_ih second_ih =>
      obtain ⟨first_ignores, second_ignores⟩ := Bool.and_eq_true_iff.1 ignores
      have first_step := ignoresCase_seq (first_ih first_ignores) second_ignores
      rw [step]
      split
      · exact ignoresCase_alt first_step (second_ih second_ignores)
      · exact first_step
  | many inner ih => exact ignoresCase_seq (ih ignores) ignores

theorem step_eq_of_toLower_eq {pattern : Pattern} (ignores : pattern.ignoresCase = true)
    {char char' : Char} (lower_eq : char'.toLower = char.toLower) :
    pattern.step char' = pattern.step char := by
  induction pattern with
  | never => rfl
  | done => rfl
  | one accepts =>
      have same_test : ∀ char ∈ capitals, accepts char.toLower = accepts char := fun char mem =>
        beq_iff_eq.1 (List.all_eq_true.1 ignores char mem)
      rw [step, step, eq_of_toLower_eq accepts same_test lower_eq]
  | either left right left_ih right_ih =>
      obtain ⟨left_ignores, right_ignores⟩ := Bool.and_eq_true_iff.1 ignores
      rw [step, step, left_ih left_ignores, right_ih right_ignores]
  | andThen first second first_ih second_ih =>
      obtain ⟨first_ignores, second_ignores⟩ := Bool.and_eq_true_iff.1 ignores
      rw [step, step, first_ih first_ignores, second_ih second_ignores]
  | many inner ih => rw [step, step, ih ignores]

end Pattern

/-! ## Pieces -/

/-- Two texts that begin at an offset are the same but for the case of letters, which may differ at
some offsets. -/
inductive Recased (may_differ : Nat → Prop) : Nat → List Char → List Char → Prop where
  | nil (offset : Nat) : Recased may_differ offset [] []
  | cons (offset : Nat) (char char' : Char) (text text' : List Char) :
      char'.toLower = char.toLower → (char' ≠ char → may_differ offset) →
      Recased may_differ (offset + char.utf8Size) text text' →
      Recased may_differ offset (char :: text) (char' :: text')

namespace Recased

/-- Whether two texts are the same but for letter case. -/
instance decidable {may_differ : Nat → Prop} [DecidablePred may_differ] :
    (offset : Nat) → (text text' : List Char) → Decidable (Recased may_differ offset text text')
  | offset, [], [] => isTrue (.nil offset)
  | _, [], _ :: _ => isFalse nofun
  | _, _ :: _, [] => isFalse nofun
  | offset, char :: text, char' :: text' =>
    have : Decidable (Recased may_differ (offset + char.utf8Size) text text') := decidable _ text text'
    decidable_of_iff (char'.toLower = char.toLower ∧ (char' ≠ char → may_differ offset) ∧
        Recased may_differ (offset + char.utf8Size) text text')
      ⟨fun ⟨lower_eq, differs, rest⟩ => .cons offset char char' text text' lower_eq differs rest,
        fun recased => by
          obtain _ | ⟨_, _, _, _, _, lower_eq, differs, rest⟩ := recased
          exact ⟨lower_eq, differs, rest⟩⟩

variable {may_differ : Nat → Prop} {offset : Nat} {text text' : List Char}

theorem length_eq (recased : Recased may_differ offset text text') :
    text'.length = text.length := by
  induction recased with
  | nil => rfl
  | cons _ _ _ _ _ _ _ _ ih => rw [List.length_cons, List.length_cons, ih]

theorem bytes_eq (recased : Recased may_differ offset text text') :
    Lexer.bytes text' = Lexer.bytes text := by
  induction recased with
  | nil => rfl
  | cons _ _ _ _ _ lower_eq _ _ ih =>
      rw [Lexer.bytes_cons, Lexer.bytes_cons, ih, utf8Size_eq_of_toLower_eq lower_eq]

/-- The parts of two texts are the same but for letter case if they are of one length. -/
theorem of_append {front front' back back' : List Char}
    (recased : Recased may_differ offset (front ++ back) (front' ++ back'))
    (length_eq : front'.length = front.length) :
    Recased may_differ offset front front' ∧
      Recased may_differ (offset + Lexer.bytes front) back back' := by
  induction front generalizing front' offset with
  | nil =>
      obtain rfl := List.length_eq_zero_iff.1 length_eq
      exact ⟨.nil offset, recased⟩
  | cons char front ih =>
      cases front' with
      | nil => cases length_eq
      | cons char' front' =>
          cases recased with
          | cons _ _ _ _ _ lower_eq differs rest =>
              obtain ⟨front_recased, back_recased⟩ := ih rest (Nat.succ.inj length_eq)
              rw [Nat.add_assoc, ← Lexer.bytes_cons] at back_recased
              exact ⟨.cons _ _ _ _ _ lower_eq differs front_recased, back_recased⟩

/-- Where no letter may differ the texts are the same. -/
theorem eq_of_not (recased : Recased may_differ offset text text')
    (fixed : ∀ place, offset ≤ place → place < offset + Lexer.bytes text → ¬ may_differ place) :
    text' = text := by
  induction recased with
  | nil => rfl
  | cons offset char char' text text' _ differs _ ih =>
      rw [Lexer.bytes_cons] at fixed
      have char_pos := char.utf8Size_pos
      have char_eq : char' = char := by
        by_contra other
        exact fixed offset (Nat.le_refl _) (by omega) (differs other)
      rw [char_eq, ih fun place le lt => fixed place (by omega) (by omega)]

end Recased

namespace Lexer

section

variable {may_differ : Nat → Prop} {offset : Nat} {text text' : List Char}

theorem longestFrom_recased (recased : Recased may_differ offset text text') {rules : List Rule}
    (ignores : ∀ rule ∈ rules, rule.pattern.ignoresCase = true) (read : Nat)
    (best : Option (Kind × Nat)) :
    longestFrom rules read best text' = longestFrom rules read best text := by
  induction recased generalizing rules read best with
  | nil => rfl
  | cons offset char char' text text' lower_eq _ _ ih =>
      have advance_eq : advance char' rules = advance char rules := by
        refine List.filterMap_congr fun rule mem => ?_
        rw [Pattern.step_eq_of_toLower_eq (ignores rule mem) lower_eq]
      have live_ignores : ∀ rule ∈ advance char rules, rule.pattern.ignoresCase = true := by
        intro rule mem
        obtain ⟨origin, origin_mem, -, rfl⟩ := mem_advance.1 mem
        exact Pattern.ignoresCase_step (ignores origin origin_mem) char
      rw [longestFrom, longestFrom, advance_eq]
      generalize advance char rules = live at live_ignores ⊢
      cases live with
      | nil => rfl
      | cons => exact ih live_ignores _ _

theorem longest_recased (recased : Recased may_differ offset text text') :
    longest text' = longest text := by
  have ignores : ∀ rule ∈ Rule.all, rule.pattern.ignoresCase = true := by decide +kernel
  exact longestFrom_recased recased ignores 0 none

/-- The pieces are of one kind and one length. -/
structure SamePiece (piece piece' : Piece) : Prop where
  /-- The kind. -/
  kind_eq : piece'.kind? = piece.kind?
  /-- The length in characters. -/
  length_eq : piece'.text.length = piece.text.length

theorem piecesAfter_recased (recased : Recased may_differ offset text text') (taken : Nat) :
    List.Forall₂ SamePiece (piecesAfter taken text) (piecesAfter taken text') := by
  induction recased generalizing taken with
  | nil => cases taken <;> exact .nil
  | cons offset char char' text text' lower_eq differs rest ih =>
      cases taken with
      | succ taken => exact ih taken
      | zero =>
          have whole := Recased.cons offset char char' text text' lower_eq differs rest
          rw [piecesAfter, piecesAfter, longest_recased whole]
          refine .cons ⟨rfl, ?_⟩ (ih _)
          rw [List.length_take, List.length_take, whole.length_eq]

theorem join_samePiece {pieces pieces' : List Piece}
    (same : List.Forall₂ SamePiece pieces pieces') :
    List.Forall₂ SamePiece (join pieces) (join pieces') := by
  induction same with
  | nil => exact .nil
  | @cons piece piece' rest rest' piece_same _ ih =>
      rw [join, join, piece_same.kind_eq]
      generalize join rest = joined, join rest' = joined' at ih ⊢
      cases ih with
      | nil => cases piece.kind? <;> exact .cons piece_same .nil
      | @cons next next' more more' next_same more_same =>
          obtain ⟨kind?, text⟩ := next
          obtain ⟨kind?', text'⟩ := next'
          obtain rfl : kind?' = kind? := next_same.kind_eq
          have all_same := List.Forall₂.cons piece_same (.cons next_same more_same)
          cases piece.kind? with
          | some => exact all_same
          | none =>
              cases kind?' with
              | some => exact all_same
              | none =>
                  refine .cons ⟨rfl, ?_⟩ more_same
                  dsimp only
                  rw [List.length_append, List.length_append, piece_same.length_eq,
                    next_same.length_eq]

/-- The joined pieces of a text make up the text. -/
theorem flatMap_join_pieces (text : List Char) : (join (pieces text)).flatMap (·.text) = text := by
  obtain ⟨size, size_eq⟩ : ∃ size, text.length = size := ⟨_, rfl⟩
  induction size using Nat.strongRecOn generalizing text with
  | ind size ih =>
      obtain rfl | not_nil := Decidable.em (text = [])
      · rfl
      have rest_eq : ∀ {length}, 0 < length →
          (join (pieces (text.drop length))).flatMap (·.text) = text.drop length := by
        intro length pos
        have text_pos := List.length_pos_iff.2 not_nil
        exact ih _ (by rw [List.length_drop]; omega) _ rfl
      obtain ⟨kind, length, munch, join_eq⟩ | ⟨length, failures, -, join_eq⟩ :=
        firstPiece_of_ne_nil not_nil
      · rw [join_eq, List.flatMap_cons, rest_eq munch.pos, List.take_append_drop]
      · rw [join_eq, List.flatMap_cons, rest_eq failures.pos, List.take_append_drop]

theorem after_recased (recased : Recased may_differ offset text text') (start : Place) :
    start.afterAll text' = start.afterAll text := by
  have same_line : ∀ char ∈ capitals, (char.toLower == '\n') = (char == '\n') := by decide
  induction recased generalizing start with
  | nil => rfl
  | cons offset char char' text text' lower_eq _ _ ih =>
      have place_eq : start.after char' = start.after char := by
        have line_eq := eq_of_toLower_eq (· == '\n') same_line lower_eq
        have size_eq := utf8Size_eq_of_toLower_eq lower_eq
        rw [Place.after, Place.after, size_eq]
        simp only [beq_eq_beq] at line_eq
        simp only [line_eq]
      rw [Place.afterAll, List.foldl_cons, place_eq]
      exact ih _

end

/-! ## Tokens -/

/-- The tokens are of one kind, stand at one place, and are the same but for the case of letters,
which may differ at some offsets. -/
structure SamePlace (may_differ : Nat → Prop) (token token' : Token) : Prop where
  /-- The kind. -/
  kind_eq : token'.kind = token.kind
  /-- The line. -/
  line_eq : token'.line = token.line
  /-- The column. -/
  column_eq : token'.column = token.column
  /-- The offset. -/
  offset_eq : token'.offset = token.offset
  /-- The text. -/
  recased : Recased may_differ token.offset token.text.toList token'.text.toList

section

variable {may_differ : Nat → Prop} {token token' : Token}

theorem SamePlace.span_eq (same : SamePlace may_differ token token') :
    token'.span = token.span := by
  have size_eq := same.recased.bytes_eq
  rw [bytes_toList, bytes_toList] at size_eq
  rw [Lexeme.span, Lexeme.span, same.offset_eq, size_eq]

theorem SamePlace.endColumn_eq (same : SamePlace may_differ token token') :
    token'.endColumn = token.endColumn := by
  have length_eq := same.recased.length_eq
  rw [String.length_toList, String.length_toList] at length_eq
  rw [Lexeme.endColumn, Lexeme.endColumn, same.column_eq, length_eq]

end

theorem place_recased {may_differ : Nat → Prop} {pieces pieces' : List Piece}
    (same : List.Forall₂ SamePiece pieces pieces') (start : Place)
    (recased : Recased may_differ start.offset (pieces.flatMap (·.text)) (pieces'.flatMap (·.text))) :
    List.Forall₂ (SamePlace may_differ) (place start pieces) (place start pieces') := by
  induction same generalizing start with
  | nil => exact .nil
  | @cons piece piece' rest rest' piece_same _ ih =>
      rw [List.flatMap_cons, List.flatMap_cons] at recased
      obtain ⟨text_recased, rest_recased⟩ := recased.of_append piece_same.length_eq
      rw [place, place, after_recased text_recased]
      have next_offset : start.offset + bytes piece.text = (start.afterAll piece.text).offset :=
        (offset_afterAll start piece.text).symm
      rw [next_offset] at rest_recased
      refine List.rel_append ?_ (ih _ rest_recased)
      rw [Piece.token?, Piece.token?, piece_same.kind_eq]
      split
      · exact .nil
      · refine .cons ⟨rfl, rfl, rfl, rfl, ?_⟩ .nil
        simpa using text_recased

end Lexer

/-- The tokens are the same but for the case of letters, and that only if they are words. -/
structure Token.IsRecased (token token' : Token) : Prop where
  /-- The kind. -/
  kind_eq : token'.kind = token.kind
  /-- The line. -/
  line_eq : token'.line = token.line
  /-- The column. -/
  column_eq : token'.column = token.column
  /-- The column behind its last character. -/
  endColumn_eq : token'.endColumn = token.endColumn
  /-- The part of the text. -/
  span_eq : token'.span = token.span
  /-- The text. -/
  text_eq : token.kind.isKeyword = false → token'.text = token.text

/-- The offset lies in a word of the language. -/
def InKeyword (source : String) (offset : Nat) : Prop :=
  ∃ token ∈ tokenize source, token.kind.isKeyword = true ∧ token.span.start ≤ offset ∧
    offset < token.span.stop

instance (source : String) : DecidablePred (InKeyword source) := fun offset =>
  inferInstanceAs (Decidable (∃ token ∈ tokenize source, token.kind.isKeyword = true ∧
    token.span.start ≤ offset ∧ offset < token.span.stop))

/-- The second text is the first one but for the case of letters in its words. -/
def KeywordsRecased (source source' : String) : Prop :=
  Recased (InKeyword source) 0 source.toList source'.toList

instance (source source' : String) : Decidable (KeywordsRecased source source') :=
  Recased.decidable 0 source.toList source'.toList

open Lexer

/-- An offset lies in one token only. -/
theorem eq_of_mem_spans {init : List Token} {final token other : Token}
    (is_list : IsTokenList init final) (token_mem : token ∈ init) (other_mem : other ∈ init)
    {offset : Nat} (inside : token.span.start ≤ offset ∧ offset < token.span.stop)
    (other_inside : other.span.start ≤ offset ∧ offset < other.span.stop) : token = other := by
  by_contra distinct
  have apart : init.Pairwise fun first second =>
      first.span.stop ≤ second.span.start ∨ second.span.stop ≤ first.span.start :=
    is_list.sorted.imp .inl
  have symmetric : Std.Symm fun first second : Token =>
      first.span.stop ≤ second.span.start ∨ second.span.stop ≤ first.span.start :=
    ⟨fun _ _ => Or.symm⟩
  have token_apart := apart.forall token_mem other_mem distinct
  omega

/-- Words in another case are read as the same tokens. -/
theorem tokenize_recased {source source' : String} (recased : KeywordsRecased source source') :
    List.Forall₂ Token.IsRecased (tokenize source) (tokenize source') := by
  have pieces_same : List.Forall₂ SamePiece (join (pieces source.toList))
      (join (pieces source'.toList)) := join_samePiece (piecesAfter_recased recased 0)
  have tokens_same : List.Forall₂ (SamePlace (InKeyword source))
      (place {} (join (pieces source.toList))) (place {} (join (pieces source'.toList))) := by
    refine place_recased pieces_same {} ?_
    rwa [flatMap_join_pieces, flatMap_join_pieces]
  obtain ⟨init, final, tokens_eq, is_list, -⟩ := exists_tokenize_eq source
  have init_eq : place {} (join (pieces source.toList)) = init := (List.append_inj' tokens_eq rfl).1
  have fixed : ∀ token ∈ init, token.kind.isKeyword = false → ∀ offset,
      token.span.start ≤ offset → offset < token.span.stop → ¬ InKeyword source offset := by
    rintro token mem not_keyword offset start_le lt_stop ⟨word, word_mem, is_keyword, inside⟩
    rw [tokens_eq] at word_mem
    obtain word_mem | word_mem := List.mem_append.1 word_mem
    · obtain rfl := eq_of_mem_spans is_list mem word_mem ⟨start_le, lt_stop⟩ inside
      rw [not_keyword] at is_keyword
      cases is_keyword
    · rw [List.mem_singleton.1 word_mem, is_list.final_kind] at is_keyword
      cases is_keyword
  rw [tokenize, tokenize, after_recased recased]
  refine List.rel_append ?_ (.cons ⟨rfl, rfl, rfl, rfl, rfl, fun _ => rfl⟩ .nil)
  rw [init_eq] at tokens_same ⊢
  generalize place {} (join (pieces source'.toList)) = init' at tokens_same
  clear is_list tokens_eq init_eq
  induction tokens_same with
  | nil => exact .nil
  | @cons token token' rest rest' same _ ih =>
      obtain ⟨token_fixed, rest_fixed⟩ := List.forall_mem_cons.1 fixed
      refine .cons ⟨same.kind_eq, same.line_eq, same.column_eq, same.endColumn_eq, same.span_eq, ?_⟩
        (ih rest_fixed)
      intro not_keyword
      refine String.toList_inj.1 (same.recased.eq_of_not fun offset le lt => ?_)
      rw [bytes_toList] at lt
      exact token_fixed not_keyword offset le lt

end WorkItemQuery
