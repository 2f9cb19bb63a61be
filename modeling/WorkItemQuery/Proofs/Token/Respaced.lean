import Mathlib.Data.List.Chain
import Mathlib.Data.List.Forall2
import WorkItemQuery.Proofs.Token.Fusion
import WorkItemQuery.Proofs.Token.Tiling

/-!
# Texts with other blanks

A text is written anew with other blanks between its tokens, and inside words of several parts.  It
is read as the same tokens, if no name stands before another name, or before a word that begins
with a letter that names do not have.
-/

namespace WorkItemQuery
namespace Lexer

/-! ## Reading a gap -/

/-- Nothing that stands behind it can be added to what is read. -/
theorem IsMunch.unextended {text : List Char} {kind : Kind} {length : Nat}
    (munch : IsMunch text kind length) : Unextended (text.take length) (text.drop length) := by
  intro more behind rest_eq not_nil
  refine kindOf?_eq_none fun rule mem accepts => ?_
  have text_eq : text = text.take length ++ more ++ behind := by
    rw [List.append_assoc, ← rest_eq, List.take_append_drop]
  have longer_eq : text.take (length + more.length) = text.take length ++ more := by
    rw [List.take_add, rest_eq, List.take_left]
  have le : length + more.length ≤ text.length := by
    have lengths := congrArg List.length text_eq
    simp only [List.length_append, List.length_take_of_le munch.le_length] at lengths
    omega
  have not_longer := munch.longest rule mem _ le (longer_eq ▸ accepts)
  have more_pos := List.length_pos_iff.2 not_nil
  omega

section

variable {gap rest : List Char} {spellings : List (Kind × List Char)}

theorem le_length_of_take {length : Nat} (le : length ≤ (gap ++ rest).length)
    (only_gap : ∀ char ∈ (gap ++ rest).take length, char ∈ gapChars)
    (starts : ∀ char ∈ rest.head?, char ∉ gapChars) : length ≤ gap.length := by
  refine Nat.le_of_not_lt fun longer => ?_
  cases rest with
  | nil =>
      rw [List.append_nil] at le
      exact Nat.not_le_of_lt longer le
  | cons next rest =>
      refine starts next rfl (only_gap next ?_)
      rw [List.take_append, List.take_cons (by omega)]
      exact List.mem_append_right _ (.head _)

/-- What is read first of a gap is a blank. -/
theorem exists_blank {first : Char} (only_gap : ∀ char ∈ first :: gap, char ∈ gapChars)
    (starts : ∀ char ∈ rest.head?, char ∉ gapChars) :
    ∃ kind front back, first :: gap = front ++ back ∧ front ≠ [] ∧ kindOf? front = some kind ∧
      kind.isTrivia = true ∧ Unextended front (back ++ rest) := by
  have single : ∀ char ∈ gapChars, kindOf? [char] ≠ none := by decide
  have first_mem := only_gap first (.head _)
  obtain ⟨⟨kind?, length⟩, longest_eq⟩ : ∃ found, longest (first :: gap ++ rest) = found := ⟨_, rfl⟩
  cases kind? with
  | none =>
      obtain ⟨kind, kind_eq⟩ := Option.ne_none_iff_exists'.1 (single first first_mem)
      obtain ⟨rule, mem, -, accepts⟩ := exists_rule_of_kindOf? kind_eq
      have failure := isFailure_of_longest (List.cons_ne_nil first (gap ++ rest)) longest_eq
      exact absurd accepts (failure.rejects rule mem 1 Nat.one_pos (by simp))
  | some kind =>
      have munch := isMunch_of_longest longest_eq
      obtain ⟨kind_eq, -⟩ := kindOf?_of_longest longest_eq
      obtain ⟨shorter, rfl⟩ : ∃ shorter, length = shorter + 1 := ⟨length - 1, by have := munch.pos; omega⟩
      have is_trivia : kind.isTrivia = true := isTrivia_of_gap first_mem kind_eq
      have le := le_length_of_take munch.le_length (gapChars_of_isTrivia munch is_trivia) starts
      have unextended := munch.unextended
      rw [List.take_append_of_le_length le] at kind_eq unextended
      rw [List.drop_append_of_le_length le] at unextended
      exact ⟨kind, _, _, (List.take_append_drop _ _).symm, take_ne_nil munch.pos le, kind_eq, is_trivia, unextended⟩

/-- Blanks before a token, or at the end of a text, are passed over. -/
theorem Scans.behind_gap (only_gap : ∀ char ∈ gap, char ∈ gapChars)
    (starts : ∀ char ∈ rest.head?, char ∉ gapChars) (scans : Scans rest spellings) :
    Scans (gap ++ rest) spellings := by
  obtain ⟨size, size_eq⟩ : ∃ size, gap.length = size := ⟨_, rfl⟩
  induction size using Nat.strongRecOn generalizing gap with
  | ind size ih =>
      cases gap with
      | nil => exact scans
      | cons first gap =>
          obtain ⟨kind, front, back, gap_eq, not_nil, kind_eq, is_trivia, unextended⟩ :=
            exists_blank only_gap starts
          rw [gap_eq] at only_gap size_eq ⊢
          have shorter : back.length < size := by
            have front_pos := List.length_pos_iff.2 not_nil
            rw [List.length_append] at size_eq
            omega
          rw [List.append_assoc]
          refine .blank kind front (back ++ rest) spellings kind_eq is_trivia unextended ?_
          exact ih _ shorter (fun char mem => only_gap char (List.mem_append_right _ mem)) rfl

/-- A token behind blanks is read. -/
theorem Scans.token_behind_gap {kind : Kind} {text : List Char} (scans : Scans rest spellings)
    (only_gap : ∀ char ∈ gap, char ∈ gapChars) (kind_eq : kindOf? text = some kind)
    (not_trivia : kind.isTrivia = false) (unextended : Unextended text rest) :
    Scans (gap ++ (text ++ rest)) ((kind, text) :: spellings) := by
  refine Scans.behind_gap only_gap (fun first head_eq => ?_)
    (.token _ _ _ _ kind_eq not_trivia unextended scans)
  obtain ⟨char, text, rfl⟩ := List.exists_cons_of_ne_nil (ne_nil_of_kindOf? kind_eq)
  obtain rfl : char = first := Option.some.inj head_eq
  exact not_gap_of_kindOf? kind_eq not_trivia

end

/-! ## Tokens that are read where they stand -/

/-- The text, which begins at the offset, consists of the tokens, to none of which anything could be
added, with blank gaps before, between and behind them. -/
inductive Munches : Nat → List Char → List Token → Prop where
  | gap (offset : Nat) (gap : List Char) : (∀ char ∈ gap, char ∈ gapChars) → Munches offset gap []
  | token (offset : Nat) (gap rest : List Char) (token : Token) (tokens : List Token) :
      (∀ char ∈ gap, char ∈ gapChars) → token.offset = offset + bytes gap →
      kindOf? token.text.toList = some token.kind → token.kind.isTrivia = false →
      Unextended token.text.toList rest → Munches token.span.stop rest tokens →
      Munches offset (gap ++ (token.text.toList ++ rest)) (token :: tokens)

section

variable {offset : Nat} {text : List Char} {tokens : List Token}

theorem Munches.blank {gap : List Char} (only_gap : ∀ char ∈ gap, char ∈ gapChars)
    (munches : Munches (offset + bytes gap) text tokens) : Munches offset (gap ++ text) tokens := by
  cases munches with
  | gap _ more only_more =>
      exact .gap _ _ fun char mem => (List.mem_append.1 mem).elim (only_gap char) (only_more char)
  | token _ more rest token tokens only_more offset_eq kind_eq not_trivia unextended munches =>
      rw [← List.append_assoc]
      refine .token _ _ _ _ _ (fun char mem => ?_) ?_ kind_eq not_trivia unextended munches
      · exact (List.mem_append.1 mem).elim (only_gap char) (only_more char)
      · rw [offset_eq, bytes_append, Nat.add_assoc]

/-- Where nothing is passed over, the tokens are read where they stand. -/
theorem Lexes.munches (lexes : Lexes offset text tokens)
    (kinds : ∀ token ∈ tokens, kindOf? token.text.toList = some token.kind) :
    Munches offset text tokens := by
  induction lexes with
  | done offset => exact .gap _ _ nofun
  | blank offset text kind length tokens munch is_trivia lexes ih =>
      have blank := (ih kinds).blank (gapChars_of_isTrivia munch is_trivia)
      rwa [List.take_append_drop] at blank
  | token offset text kind length token tokens munch not_trivia is_token lexes ih =>
      obtain ⟨kind_eq, rest_kinds⟩ := List.forall_mem_cons.1 kinds
      have text_eq : token.text.toList = text.take length := by
        rw [is_token.text_eq, String.toList_ofList]
      have munches := ih rest_kinds
      rw [← is_token.stop_eq] at munches
      have all_munches := Munches.token offset [] (text.drop length) token tokens nofun
        is_token.offset_eq kind_eq (is_token.kind_eq ▸ not_trivia) (text_eq ▸ munch.unextended) munches
      rwa [List.nil_append, text_eq, List.take_append_drop] at all_munches
  | failures offset text length token tokens failures goes_on is_token lexes ih =>
      have known : ∀ rule ∈ Rule.all, rule.kind ≠ .unrecognized := by decide
      obtain ⟨rule, mem, rule_kind, -⟩ :=
        exists_rule_of_kindOf? (kinds token (.head _))
      exact absurd (rule_kind.trans is_token.kind_eq) (known rule mem)

end

/-! ## Other blanks -/

/-- The text of a token with other blanks inside, if its kind may have them. -/
def Respells (kind : Kind) (text text' : List Char) : Prop :=
  if kind ∈ spacedWords then Reblanked text text' else text' = text

/-- The text consists of the tokens with gaps before, between and behind them.  Where the tokens had
no gap between them there is none, and elsewhere there is any.  Before the tokens something may stop:
then the first of them had a gap before it if it did not begin there. -/
inductive Respaces : Option Nat → List Token → List Char → Prop where
  | gap (stop? : Option Nat) (gap : List Char) : (∀ char ∈ gap, char ∈ gapChars) →
      Respaces stop? [] gap
  | token (stop? : Option Nat) (gap text rest : List Char) (token : Token) (tokens : List Token) :
      (∀ char ∈ gap, char ∈ gapChars) → (∀ stop ∈ stop?, gap = [] ↔ token.span.start = stop) →
      Respells token.kind token.text.toList text → Respaces (some token.span.stop) tokens rest →
      Respaces stop? (token :: tokens) (gap ++ (text ++ rest))

/-- What has no blanks is spelled the same. -/
theorem Respells.of_front {kind : Kind} {text front back : List Char}
    (respells : Respells kind text (front ++ back)) (no_gap : ∀ char ∈ front, char ∉ gapChars) :
    ∃ more, text = front ++ more := by
  rw [Respells] at respells
  split at respells
  · have front_no_gap : ∀ char ∈ front, Rule.isGap char = false := fun char mem =>
      Bool.eq_false_iff.2 fun is_gap => no_gap char mem (mem_gapChars_of_isGap is_gap)
    obtain ⟨more, text_eq, -⟩ := respells.symm.of_front front_no_gap
    exact ⟨more, text_eq⟩
  · exact ⟨back, respells.symm⟩

theorem Respells.eq_of_no_gap {kind : Kind} {text text' : List Char}
    (respells : Respells kind text text') (no_gap : ∀ char ∈ text', char ∉ gapChars) :
    text' = text := by
  rw [Respells] at respells
  split at respells
  · exact respells.eq_of_no_gap fun char mem =>
      Bool.eq_false_iff.2 fun is_gap => no_gap char mem (mem_gapChars_of_isGap is_gap)
  · exact respells

theorem Respells.kindOf?_eq {kind : Kind} {text text' : List Char} (kind_eq : kindOf? text = some kind)
    (respells : Respells kind text text') : kindOf? text' = some kind := by
  rw [Respells] at respells
  split at respells
  · rename_i kind_mem
    exact kindOf?_reblanked kind_eq kind_mem respells
  · rw [respells, kind_eq]

/-- What does not begin with a blank is found behind the gap in one way. -/
theorem gap_unique {gap gap' more more' : List Char} {first first' : Char}
    (only_gap : ∀ char ∈ gap, char ∈ gapChars) (first_not_gap : first ∉ gapChars)
    (only_gap' : ∀ char ∈ gap', char ∈ gapChars) (first_not_gap' : first' ∉ gapChars)
    (text_eq : gap ++ first :: more = gap' ++ first' :: more') : first :: more = first' :: more' := by
  induction gap generalizing gap' with
  | nil =>
      cases gap' with
      | nil => exact text_eq
      | cons blank gap' =>
          obtain ⟨rfl, -⟩ := List.cons.inj text_eq
          exact absurd (only_gap' first (.head _)) first_not_gap
  | cons blank gap ih =>
      cases gap' with
      | nil =>
          obtain ⟨rfl, -⟩ := List.cons.inj text_eq
          exact absurd (only_gap blank (.head _)) first_not_gap'
      | cons blank' gap' =>
          exact ih (fun char mem => only_gap char (.tail _ mem))
            (fun char mem => only_gap' char (.tail _ mem)) (List.cons.inj text_eq).2

section

variable {offset : Nat} {stop? : Option Nat} {text text' : List Char} {tokens : List Token}

/-- Up to the first blank the new text is a start of the old one. -/
theorem Munches.sameFront (munches : Munches offset text tokens)
    (respaces : Respaces (some offset) tokens text') : SameFront text text' := by
  induction munches generalizing text' with
  | gap offset gap only_gap =>
      cases respaces with
      | gap _ gap' only_gap' =>
          rintro front back rfl no_gap
          cases front with
          | nil => exact ⟨gap, rfl⟩
          | cons first front => exact absurd (only_gap' first (.head _)) (no_gap first (.head _))
  | token offset gap rest token tokens only_gap offset_eq kind_eq not_trivia unextended munches ih =>
      cases respaces with
      | token _ gap' new_text new_rest _ _ only_gap' gap_iff respells rest_respaces =>
          intro front back text_eq no_gap
          cases gap' with
          | cons blank gap' =>
              cases front with
              | nil => exact ⟨_, rfl⟩
              | cons first front =>
                  obtain ⟨rfl, -⟩ := List.cons.inj text_eq
                  exact absurd (only_gap' blank (.head _)) (no_gap blank (.head _))
          | nil =>
              have start_eq : token.offset = offset := (gap_iff offset rfl).1 rfl
              have no_bytes : bytes gap = 0 := by omega
              obtain rfl : gap = [] := Decidable.byContradiction fun not_nil =>
                absurd (bytes_pos not_nil) (no_bytes ▸ Nat.lt_irrefl 0)
              rw [List.nil_append] at text_eq
              obtain ⟨more, rfl, rest_eq⟩ | ⟨more, rfl, -⟩ := List.append_eq_append_iff.1 text_eq
              · rw [List.forall_mem_append] at no_gap
                obtain ⟨tail, rfl⟩ := ih rest_respaces more back rest_eq no_gap.2
                rw [respells.eq_of_no_gap no_gap.1]
                exact ⟨tail, by simp⟩
              · obtain ⟨tail, tail_eq⟩ := respells.of_front no_gap
                exact ⟨tail ++ rest, by rw [tail_eq]; simp⟩

/-- Where no token is that may not stand behind a name, the new text goes on as one may behind a
name. -/
theorem Munches.followsName (munches : Munches offset text tokens)
    (respaces : Respaces stop? tokens text')
    (head_apart : ∀ token ∈ tokens.head?, token.kind ∉ notBehindName) : FollowsName text' := by
  intro gap first more text_eq only_gap first_not_gap
  cases munches with
  | gap =>
      cases respaces with
      | gap _ gap' only_gap' =>
          refine absurd (only_gap' first ?_) first_not_gap
          rw [text_eq]
          exact List.mem_append_right _ (.head _)
  | token _ _ rest token tokens _ _ kind_eq not_trivia _ _ =>
      cases respaces with
      | token _ gap' new_text new_rest _ _ only_gap' _ respells _ =>
          have new_kind := respells.kindOf?_eq kind_eq
          obtain ⟨char, new_text, rfl⟩ := List.exists_cons_of_ne_nil (ne_nil_of_kindOf? new_kind)
          have same := gap_unique only_gap' (not_gap_of_kindOf? new_kind not_trivia) only_gap
            first_not_gap text_eq
          exact ⟨char :: new_text, new_rest, token.kind, same.symm, new_kind, head_apart token rfl⟩

end

end Lexer

/-- The second token may stand behind the first. -/
def Token.MayFollow (first second : Token) : Prop :=
  first.kind = .identifier → second.kind ∉ Lexer.notBehindName

/-- What a token may be spelled as where other blanks are put. -/
def Token.IsRespelled (token : Token) (spelling : Kind × List Char) : Prop :=
  spelling.1 = token.kind ∧ Lexer.Respells token.kind token.text.toList spelling.2

namespace Lexer

variable {offset : Nat} {stop? : Option Nat} {text text' : List Char} {tokens : List Token}

/-- A text with other blanks is written as the same tokens. -/
theorem Munches.exists_scans (munches : Munches offset text tokens)
    (respaces : Respaces stop? tokens text') (apart : tokens.IsChain Token.MayFollow)
    (regular : ∀ token ∈ tokens, token.kind ∉ straying) :
    ∃ spellings, Scans text' spellings ∧ List.Forall₂ Token.IsRespelled tokens spellings := by
  induction munches generalizing stop? text' with
  | gap offset gap only_gap =>
      cases respaces with
      | gap _ gap' only_gap' =>
          have scans := Scans.nil.behind_gap only_gap' (by simp)
          rw [List.append_nil] at scans
          exact ⟨[], scans, .nil⟩
  | token offset gap rest token tokens only_gap offset_eq kind_eq not_trivia unextended munches ih =>
      cases respaces with
      | token _ gap' new_text new_rest _ _ only_gap' gap_iff respells rest_respaces =>
          obtain ⟨head_apart, rest_apart⟩ := List.isChain_cons.1 apart
          obtain ⟨token_regular, rest_regular⟩ := List.forall_mem_cons.1 regular
          obtain ⟨spellings, scans, spelled⟩ := ih rest_respaces rest_apart rest_regular
          have new_kind := respells.kindOf?_eq kind_eq
          have same_front := munches.sameFront rest_respaces
          have new_unextended : Unextended new_text new_rest := by
            by_cases kind_mem : token.kind ∈ spacedWords
            · rw [Respells, if_pos kind_mem] at respells
              exact unextended_reblanked kind_eq kind_mem unextended same_front respells
            · rw [Respells, if_neg kind_mem] at respells
              rw [respells]
              exact unextended_of_sameFront kind_eq not_trivia token_regular kind_mem unextended
                same_front fun named => munches.followsName rest_respaces fun next mem =>
                  head_apart next mem named
          have token_scans := scans.token_behind_gap only_gap' new_kind not_trivia new_unextended
          exact ⟨_, token_scans, .cons ⟨rfl, respells⟩ spelled⟩

end Lexer
end WorkItemQuery
