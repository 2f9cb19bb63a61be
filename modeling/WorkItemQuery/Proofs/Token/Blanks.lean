import WorkItemQuery.Proofs.Token.Lexing

/-!
# Words with other blanks

The blanks inside a word may be replaced by any others.  The word stays what it is, and nothing can
be added to it, since no word of this kind is the beginning of another one.
-/

namespace WorkItemQuery
namespace Lexer

/-- The texts are the same but for the blanks inside: where the one has some, the other has some. -/
inductive Reblanked : List Char → List Char → Prop where
  | nil : Reblanked [] []
  | letter (char : Char) (text text' : List Char) : Rule.isGap char = false →
      Reblanked text text' → Reblanked (char :: text) (char :: text')
  | blanks (gap gap' text text' : List Char) : gap ≠ [] → gap' ≠ [] →
      (∀ char ∈ gap, Rule.isGap char = true) → (∀ char ∈ gap', Rule.isGap char = true) →
      Reblanked text text' → Reblanked (gap ++ text) (gap' ++ text')

/-- The characters of a text that are no blanks. -/
def squeezed (text : List Char) : List Char := text.filter fun char => !Rule.isGap char

@[simp]
theorem squeezed_append (front back : List Char) :
    squeezed (front ++ back) = squeezed front ++ squeezed back := List.filter_append ..

theorem squeezed_of_no_gap {text : List Char} (no_gap : ∀ char ∈ text, Rule.isGap char = false) :
    squeezed text = text :=
  List.filter_eq_self.2 fun char mem => by rw [no_gap char mem]; rfl

theorem squeezed_of_gap {text : List Char} (only_gap : ∀ char ∈ text, Rule.isGap char = true) :
    squeezed text = [] :=
  List.filter_eq_nil_iff.2 fun char mem => by rw [only_gap char mem]; nofun

namespace Reblanked

variable {text text' front back gap : List Char}

theorem refl (text : List Char) : Reblanked text text := by
  induction text with
  | nil => exact .nil
  | cons char text ih =>
      cases is_gap : Rule.isGap char with
      | false => exact .letter char text text is_gap ih
      | true =>
          have only_gap : ∀ other ∈ [char], Rule.isGap other = true := by simpa using is_gap
          exact .blanks [char] [char] text text nofun nofun only_gap only_gap ih

theorem symm (reblanked : Reblanked text text') : Reblanked text' text := by
  induction reblanked with
  | nil => exact .nil
  | letter char _ _ not_gap _ ih => exact .letter char _ _ not_gap ih
  | blanks _ _ _ _ gap_ne gap_ne' only_gap only_gap' _ ih =>
      exact .blanks _ _ _ _ gap_ne' gap_ne only_gap' only_gap ih

/-- A text without blanks stays as it is. -/
theorem of_front (reblanked : Reblanked (front ++ back) text')
    (no_gap : ∀ char ∈ front, Rule.isGap char = false) :
    ∃ back', text' = front ++ back' ∧ Reblanked back back' := by
  induction front generalizing text' with
  | nil => exact ⟨text', rfl, reblanked⟩
  | cons char front ih =>
      obtain ⟨char_no_gap, front_no_gap⟩ := List.forall_mem_cons.1 no_gap
      generalize text_eq : char :: front ++ back = text at reblanked
      cases reblanked with
      | nil => cases text_eq
      | letter _ _ rest' _ rest_reblanked =>
          obtain ⟨rfl, rfl⟩ := List.cons.inj text_eq
          obtain ⟨back', rfl, back_reblanked⟩ := ih rest_reblanked front_no_gap
          exact ⟨back', rfl, back_reblanked⟩
      | blanks gap gap' rest rest' gap_ne _ only_gap =>
          obtain ⟨first, gap, rfl⟩ := List.exists_cons_of_ne_nil gap_ne
          obtain ⟨rfl, -⟩ := List.cons.inj text_eq
          rw [only_gap char (.head _)] at char_no_gap
          cases char_no_gap

theorem eq_of_no_gap (reblanked : Reblanked text text')
    (no_gap : ∀ char ∈ text', Rule.isGap char = false) : text' = text := by
  induction reblanked with
  | nil => rfl
  | letter char text text' _ _ ih => rw [ih (List.forall_mem_cons.1 no_gap).2]
  | blanks gap gap' _ _ _ gap_ne' _ only_gap' =>
      obtain ⟨first, gap', rfl⟩ := List.exists_cons_of_ne_nil gap_ne'
      have first_gap := only_gap' first (.head _)
      rw [no_gap first (.head _)] at first_gap
      cases first_gap

/-- Blanks become blanks, and there are none only where there were none. -/
theorem of_gap (reblanked : Reblanked (gap ++ back) text')
    (only_gap : ∀ char ∈ gap, Rule.isGap char = true)
    (ends : ∀ char ∈ back.head?, Rule.isGap char = false) :
    ∃ gap' back', text' = gap' ++ back' ∧ (∀ char ∈ gap', Rule.isGap char = true) ∧
      (gap' = [] ↔ gap = []) ∧ Reblanked back back' := by
  generalize text_eq : gap ++ back = text at reblanked
  induction reblanked generalizing gap with
  | nil =>
      obtain ⟨rfl, rfl⟩ := List.append_eq_nil_iff.1 text_eq
      exact ⟨[], [], rfl, nofun, Iff.rfl, .nil⟩
  | letter char text text' not_gap reblanked ih =>
      cases gap with
      | nil =>
          obtain rfl : back = char :: text := text_eq
          exact ⟨[], _, rfl, nofun, Iff.rfl, .letter char text text' not_gap reblanked⟩
      | cons first gap =>
          obtain ⟨rfl, -⟩ := List.cons.inj text_eq
          rw [only_gap first (.head _)] at not_gap
          cases not_gap
  | blanks front front' text text' front_ne front_ne' front_gap front_gap' reblanked ih =>
      obtain ⟨more, rfl, rfl⟩ | ⟨more, rfl, rest_eq⟩ := List.append_eq_append_iff.1 text_eq
      · cases more with
        | nil =>
            rw [List.append_nil] at front_ne
            exact ⟨front', text', rfl, front_gap', by simp [front_ne, front_ne'], reblanked⟩
        | cons first more =>
            have first_gap := front_gap first (List.mem_append_right _ (.head _))
            rw [ends first rfl] at first_gap
            cases first_gap
      · obtain ⟨gap', back', rfl, only_gap', -, back_reblanked⟩ :=
          ih (fun char mem => only_gap char (List.mem_append_right _ mem)) rest_eq.symm
        refine ⟨front' ++ gap', back', (List.append_assoc ..).symm, ?_, by simp [front_ne, front_ne'],
          back_reblanked⟩
        exact fun char mem => (List.mem_append.1 mem).elim (front_gap' char) (only_gap' char)

end Reblanked

/-! ## The words stay what they are -/

/-- The pattern does not tell blanks apart. -/
def KeepsBlanks (pattern : Pattern) : Prop :=
  ∀ text text', pattern.Matches text → Reblanked text text' → pattern.Matches text'

theorem no_gap_of_word {word : String}
    (no_blank : ∀ char ∈ innerBlanks, (Rule.word word).uses char = false) {text : List Char}
    (accepts : (Rule.word word).Matches text) : ∀ char ∈ text, Rule.isGap char = false := by
  intro char mem
  rw [Bool.eq_false_iff]
  intro is_gap
  have char_uses := Pattern.uses_of_matches accepts mem
  rw [no_blank char (mem_innerBlanks is_gap)] at char_uses
  cases char_uses

theorem keepsBlanks_word {word : String}
    (no_blank : ∀ char ∈ innerBlanks, (Rule.word word).uses char = false) :
    KeepsBlanks (Rule.word word) := by
  intro text text' accepts reblanked
  rwa [reblanked.symm.eq_of_no_gap (no_gap_of_word no_blank accepts)] at accepts

/-- A word, blanks or none, and what does not begin with a blank. -/
theorem KeepsBlanks.andThen {word : String} {gaps second : Pattern}
    (second_keeps : KeepsBlanks second)
    (no_blank : ∀ char ∈ innerBlanks, (Rule.word word).uses char = false)
    (only_gaps : ∀ front, gaps.Matches front → ∀ char ∈ front, Rule.isGap char = true)
    (gaps_keep : ∀ gap gap', gaps.Matches gap → (∀ char ∈ gap', Rule.isGap char = true) →
      (gap' = [] ↔ gap = []) → gaps.Matches gap')
    (second_starts : ∀ char ∈ innerBlanks, second.starts char = false) :
    KeepsBlanks (.andThen (Rule.word word) (.andThen gaps second)) := by
  rintro _ text' ⟨front, _, rfl, word_accepts, gap, tail, rfl, gap_accepts, second_accepts⟩ reblanked
  obtain ⟨_, rfl, rest_reblanked⟩ := reblanked.of_front (no_gap_of_word no_blank word_accepts)
  have ends : ∀ char ∈ tail.head?, Rule.isGap char = false := by
    intro char head_eq
    obtain ⟨more, rfl⟩ := List.head?_eq_some_iff.1 head_eq
    rw [Bool.eq_false_iff]
    intro is_gap
    have char_starts := Pattern.starts_of_matches second_accepts
    rw [second_starts char (mem_innerBlanks is_gap)] at char_starts
    cases char_starts
  obtain ⟨gap', tail', rfl, only_gap', nil_iff, tail_reblanked⟩ :=
    rest_reblanked.of_gap (only_gaps gap gap_accepts) ends
  exact ⟨front, _, rfl, word_accepts, gap', tail', rfl,
    gaps_keep gap gap' gap_accepts only_gap' nil_iff,
    second_keeps tail tail' second_accepts tail_reblanked⟩

theorem matches_oneOrMore_gaps {gap : List Char} (not_nil : gap ≠ [])
    (only_gap : ∀ char ∈ gap, Rule.isGap char = true) :
    (Pattern.oneOrMore (.one Rule.isGap)).Matches gap := by
  obtain ⟨first, gap, rfl⟩ := List.exists_cons_of_ne_nil not_nil
  obtain ⟨first_gap, rest_gap⟩ := List.forall_mem_cons.1 only_gap
  exact ⟨[first], gap, rfl, ⟨first, rfl, first_gap⟩,
    Pattern.matches_many_one rest_gap⟩

theorem keepsBlanks_of_mem {rule : Rule} (mem : rule ∈ Rule.all)
    (kind_mem : rule.kind ∈ spacedWords) : KeepsBlanks rule.pattern := by
  have gaps_keep : ∀ gap gap', Rule.gaps.Matches gap →
      (∀ char ∈ gap', Rule.isGap char = true) → (gap' = [] ↔ gap = []) → Rule.gaps.Matches gap' :=
    fun _ _ _ only_gap' _ => Pattern.matches_many_one only_gap'
  have more_keep : ∀ gap gap', (Pattern.oneOrMore (.one Rule.isGap)).Matches gap →
      (∀ char ∈ gap', Rule.isGap char = true) → (gap' = [] ↔ gap = []) →
      (Pattern.oneOrMore (.one Rule.isGap)).Matches gap' := by
    rintro gap gap' ⟨_, rest, rfl, ⟨first, rfl, -⟩, -⟩ only_gap' nil_iff
    exact matches_oneOrMore_gaps (by simpa using nil_iff) only_gap'
  refine forall_spaced ?order_by ?asof ?items ?links rule mem kind_mem
  case order_by =>
    exact (keepsBlanks_word (by decide)).andThen (by decide) only_gaps_oneOrMore more_keep (by decide)
  case asof =>
    exact (keepsBlanks_word (by decide)).andThen (by decide) only_gaps_gaps gaps_keep (by decide)
  case items =>
    exact (keepsBlanks_word (by decide)).andThen (by decide) only_gaps_gaps gaps_keep (by decide)
  case links =>
    exact ((keepsBlanks_word (by decide)).andThen (by decide) only_gaps_gaps gaps_keep
      (by decide)).andThen (by decide) only_gaps_gaps gaps_keep (by decide)

/-! ## No word begins another one -/

/-- Without its blanks a text of the pattern is one word in either case, and it ends in a letter. -/
def IsSqueezed (pattern : Pattern) (letters : List Char) : Prop :=
  ∀ text, pattern.Matches text → (squeezed text).map Rule.foldCase = letters ∧
    ∃ front last, text = front ++ [last] ∧ Rule.isGap last = false

theorem isSqueezed_word {word : String} (not_empty : word.toList ≠ [])
    (no_blank : ∀ char ∈ innerBlanks, (Rule.word word).uses char = false) :
    IsSqueezed (Rule.word word) word.toList := by
  intro text accepts
  have no_gap := no_gap_of_word no_blank accepts
  have text_eq := Rule.matches_word.1 accepts
  refine ⟨by rw [squeezed_of_no_gap no_gap, text_eq], ?_⟩
  obtain rfl | ⟨front, last, rfl⟩ := List.eq_nil_or_concat text
  · exact absurd text_eq.symm not_empty
  · rw [List.concat_eq_append] at no_gap ⊢
    exact ⟨front, last, rfl, no_gap last (List.mem_append_right _ (.head _))⟩

theorem IsSqueezed.andThen {word : String} {gaps second : Pattern} {letters : List Char}
    (second_squeezed : IsSqueezed second letters)
    (no_blank : ∀ char ∈ innerBlanks, (Rule.word word).uses char = false)
    (only_gaps : ∀ front, gaps.Matches front → ∀ char ∈ front, Rule.isGap char = true) :
    IsSqueezed (.andThen (Rule.word word) (.andThen gaps second)) (word.toList ++ letters) := by
  rintro _ ⟨front, _, rfl, word_accepts, gap, tail, rfl, gap_accepts, second_accepts⟩
  obtain ⟨tail_eq, inner, last, rfl, not_gap⟩ := second_squeezed tail second_accepts
  refine ⟨?_, front ++ (gap ++ inner), last, by simp, not_gap⟩
  rw [squeezed_append, squeezed_append, squeezed_of_no_gap (no_gap_of_word no_blank word_accepts),
    squeezed_of_gap (only_gaps gap gap_accepts), List.nil_append, List.map_append, tail_eq,
    Rule.matches_word.1 word_accepts]

/-- The letters of a word that may have blanks inside. -/
def squeezedWord (kind : Kind) : List Char :=
  (squeezed (kind.canonicalText?.getD "").toList).map Rule.foldCase

theorem isSqueezed_of_mem {rule : Rule} (mem : rule ∈ Rule.all)
    (kind_mem : rule.kind ∈ spacedWords) : IsSqueezed rule.pattern (squeezedWord rule.kind) := by
  refine forall_spaced ?order_by ?asof ?items ?links rule mem kind_mem
  case order_by =>
    exact (isSqueezed_word (by decide) (by decide)).andThen (by decide) only_gaps_oneOrMore
  case asof =>
    exact (isSqueezed_word (by decide) (by decide)).andThen (by decide) only_gaps_gaps
  case items =>
    exact (isSqueezed_word (by decide) (by decide)).andThen (by decide) only_gaps_gaps
  case links =>
    exact ((isSqueezed_word (by decide) (by decide)).andThen (by decide) only_gaps_gaps).andThen
      (by decide) only_gaps_gaps

/-- A word with blanks inside begins with a letter of names. -/
theorem isNameStart_of_spaced {rule : Rule} (mem : rule ∈ Rule.all)
    (kind_mem : rule.kind ∈ spacedWords) {char : Char} {text : List Char}
    (accepts : rule.pattern.Matches (char :: text)) : Rule.isNameStart char = true := by
  have fold_mem : ∀ char, rule.pattern.starts char = true →
      Rule.foldCase char ∈ ['o', 'a', 'w'] := by
    refine forall_spaced ?order_by ?asof ?items ?links rule mem kind_mem <;> intro char starts <;>
      simp [Pattern.starts, Pattern.nullable, Rule.word, Rule.letters, Rule.letter] at starts <;>
      simp [starts]
  have is_letter : ∀ letter ∈ ['o', 'a', 'w'], letter.isLower = true := by decide
  have not_foreign : ∀ char ∈ Rule.foreignLetters, Rule.foldCase char ∉ ['o', 'a', 'w'] := by decide
  have char_fold := fold_mem char (Pattern.starts_of_matches accepts)
  obtain is_start | foreign := Rule.isNameStart_or_mem_foreignLetters (is_letter _ char_fold)
  · exact is_start
  · exact absurd char_fold (not_foreign char foreign)

/-- What begins like a name and has a blank inside is one of these words. -/
theorem spaced_of_gap {rule : Rule} (mem : rule ∈ Rule.all) {first blank : Char} {text : List Char}
    (accepts : rule.pattern.Matches (first :: text)) (name_start : Rule.isNameStart first = true)
    (blank_mem : blank ∈ first :: text) (is_gap : blank ∈ gapChars) :
    rule.kind ∈ spacedWords ∧ Rule.isGap blank = true := by
  obtain ⟨branch, branch_mem, branch_accepts⟩ := Pattern.exists_branch accepts
  obtain ⟨inner_gap, kind_mem, -⟩ := spaced_of_uses blank (.tail _ (.tail _ is_gap)) rule mem branch
    branch_mem (Pattern.uses_of_matches branch_accepts blank_mem) first
    (mem_wordStarts (.inl name_start)) (Pattern.starts_of_matches branch_accepts)
  exact ⟨kind_mem, inner_gap⟩

theorem kind_eq_of_squeezedWord : ∀ kind other : Kind, kind ∈ spacedWords → other ∈ spacedWords →
    squeezedWord kind <+: squeezedWord other → kind = other := by
  decide +kernel

/-- Nothing can be added to a word with blanks inside to make it another one. -/
theorem eq_nil_of_spaced {rule other : Rule} (mem : rule ∈ Rule.all) (other_mem : other ∈ Rule.all)
    (kind_mem : rule.kind ∈ spacedWords) (other_kind_mem : other.kind ∈ spacedWords)
    {text more : List Char} (accepts : rule.pattern.Matches text)
    (other_accepts : other.pattern.Matches (text ++ more)) :
    rule.kind = other.kind ∧ more = [] := by
  obtain ⟨text_eq, -⟩ := isSqueezed_of_mem mem kind_mem text accepts
  obtain ⟨whole_eq, front, last, concat_eq, not_gap⟩ :=
    isSqueezed_of_mem other_mem other_kind_mem _ other_accepts
  rw [squeezed_append, List.map_append, text_eq] at whole_eq
  have kind_eq := kind_eq_of_squeezedWord _ _ kind_mem other_kind_mem ⟨_, whole_eq⟩
  refine ⟨kind_eq, ?_⟩
  obtain rfl | ⟨inner, char, rfl⟩ := List.eq_nil_or_concat more
  · rfl
  · rw [List.concat_eq_append, ← List.append_assoc] at concat_eq
    obtain ⟨-, last_eq⟩ := List.append_inj' concat_eq rfl
    obtain rfl := List.singleton_inj.1 last_eq
    rw [kind_eq] at whole_eq
    have no_letters := List.self_eq_append_right.1 whole_eq.symm
    rw [List.map_eq_nil_iff, squeezed, List.filter_eq_nil_iff] at no_letters
    exact absurd (no_letters char (by simp)) (by simp [not_gap])

/-- A word with other blanks inside is the same word. -/
theorem kindOf?_reblanked {kind : Kind} {text text' : List Char} (kind_eq : kindOf? text = some kind)
    (kind_mem : kind ∈ spacedWords) (reblanked : Reblanked text text') :
    kindOf? text' = some kind := by
  obtain ⟨rule, mem, rfl, accepts⟩ := exists_rule_of_kindOf? kind_eq
  have accepts' := keepsBlanks_of_mem mem kind_mem text text' accepts reblanked
  by_cases has_gap : ∃ blank ∈ text', Rule.isGap blank = true
  · obtain ⟨blank, blank_mem, is_gap⟩ := has_gap
    obtain ⟨first, rest, rfl⟩ := List.exists_cons_of_ne_nil (List.ne_nil_of_mem blank_mem)
    obtain ⟨found, found_eq⟩ := exists_accepted mem accepts'
    obtain ⟨other, other_mem, rfl, other_accepts⟩ := exists_rule_of_kindOf? found_eq
    obtain ⟨other_kind_mem, -⟩ := spaced_of_gap other_mem other_accepts
      (isNameStart_of_spaced mem kind_mem accepts') blank_mem
      (mem_gapChars_of_isGap is_gap)
    rw [← List.append_nil (first :: rest)] at other_accepts
    rw [(eq_nil_of_spaced mem other_mem kind_mem other_kind_mem accepts' other_accepts).1]
    exact found_eq
  · have no_gap : ∀ char ∈ text', Rule.isGap char = false := fun char mem =>
      Bool.eq_false_iff.2 fun is_gap => has_gap ⟨char, mem, is_gap⟩
    rwa [reblanked.eq_of_no_gap no_gap]

end Lexer
end WorkItemQuery
