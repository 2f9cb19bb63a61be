import WorkItemQuery.Pattern

/-!
# Patterns and their texts

Taking a character off a text and off a pattern comes to the same, so that a pattern accepts a text
character by character exactly if the text belongs to it.
-/

namespace WorkItemQuery
namespace Pattern

theorem nullable_iff {pattern : Pattern} : pattern.nullable = true ↔ pattern.Matches [] := by
  induction pattern with
  | never => simp [nullable, Matches]
  | done => simp [nullable, Matches]
  | one accepts => simp [nullable, Matches]
  | either left right left_ih right_ih => simp [nullable, Matches, left_ih, right_ih]
  | andThen first second first_ih second_ih =>
      rw [nullable, Bool.and_eq_true, first_ih, second_ih, Matches]
      constructor
      · rintro ⟨first_matches, second_matches⟩
        exact ⟨[], [], rfl, first_matches, second_matches⟩
      · rintro ⟨front, back, nil_eq, first_matches, second_matches⟩
        obtain ⟨rfl, rfl⟩ := List.append_eq_nil_iff.1 nil_eq.symm
        exact ⟨first_matches, second_matches⟩
  | many inner => exact ⟨fun _ => ⟨[], rfl, nofun⟩, fun _ => rfl⟩

theorem matches_alt {left right : Pattern} {text : List Char} :
    (left.alt right).Matches text ↔ left.Matches text ∨ right.Matches text := by
  unfold alt
  split <;> simp [Matches]

theorem matches_seq {first second : Pattern} {text : List Char} :
    (first.seq second).Matches text ↔ (andThen first second).Matches text := by
  unfold seq
  split
  · simp [Matches]
  · constructor
    · exact fun second_matches => ⟨[], text, rfl, rfl, second_matches⟩
    · rintro ⟨_, back, rfl, rfl, second_matches⟩
      exact second_matches
  · simp [Matches]
  · rfl

/-- Only the first part with a character can begin with it. -/
theorem matches_many_cons {inner : Pattern} {char : Char} {text : List Char} :
    (many inner).Matches (char :: text) ↔
      ∃ front back, text = front ++ back ∧ inner.Matches (char :: front) ∧
        (many inner).Matches back := by
  constructor
  · rintro ⟨parts, text_eq, all_match⟩
    induction parts with
    | nil => cases text_eq
    | cons part parts ih =>
        cases part with
        | nil => exact ih text_eq fun part mem => all_match part (.tail _ mem)
        | cons first front =>
            obtain ⟨rfl, rfl⟩ := List.cons.inj text_eq
            exact ⟨front, parts.flatten, rfl, all_match _ (.head _), parts, rfl,
              fun part mem => all_match part (.tail _ mem)⟩
  · rintro ⟨front, back, rfl, front_matches, parts, rfl, all_match⟩
    refine ⟨(char :: front) :: parts, rfl, ?_⟩
    rintro part (_ | ⟨_, mem⟩)
    · exact front_matches
    · exact all_match part mem

theorem matches_many_one {accepts : Char → Bool} {text : List Char}
    (accepted : ∀ char ∈ text, accepts char = true) : (many (.one accepts)).Matches text := by
  refine ⟨text.map fun char => [char], by simp [← List.flatMap_def], fun part mem => ?_⟩
  obtain ⟨char, char_mem, rfl⟩ := List.mem_map.1 mem
  exact ⟨char, rfl, accepted char char_mem⟩

theorem matches_andThen_cons {first second : Pattern} {char : Char} {text : List Char} :
    (andThen first second).Matches (char :: text) ↔
      (∃ front back, text = front ++ back ∧ first.Matches (char :: front) ∧ second.Matches back) ∨
        first.Matches [] ∧ second.Matches (char :: text) := by
  constructor
  · rintro ⟨front, back, text_eq, first_matches, second_matches⟩
    cases front with
    | nil =>
        obtain rfl : back = char :: text := text_eq.symm
        exact .inr ⟨first_matches, second_matches⟩
    | cons other front =>
        obtain ⟨rfl, rfl⟩ := List.cons.inj text_eq
        exact .inl ⟨front, back, rfl, first_matches, second_matches⟩
  · rintro (⟨front, back, rfl, first_matches, second_matches⟩ | ⟨first_matches, second_matches⟩)
    · exact ⟨char :: front, back, rfl, first_matches, second_matches⟩
    · exact ⟨[], char :: text, rfl, first_matches, second_matches⟩

/-- What a pattern has left after a character are the texts that the character completes. -/
theorem matches_step {pattern : Pattern} {char : Char} {text : List Char} :
    (pattern.step char).Matches text ↔ pattern.Matches (char :: text) := by
  induction pattern generalizing text with
  | never => rfl
  | done => simp [step, Matches]
  | one accepts =>
      rw [step]
      split
      · rename_i accepted
        simp only [Matches, List.cons.injEq]
        constructor
        · rintro rfl
          exact ⟨char, ⟨rfl, rfl⟩, accepted⟩
        · rintro ⟨_, ⟨-, text_eq⟩, -⟩
          exact text_eq
      · rename_i rejects
        simp only [Matches, List.cons.injEq, false_iff, not_exists, not_and]
        rintro _ ⟨rfl, -⟩ accepted
        exact rejects accepted
  | either left right left_ih right_ih => rw [step, matches_alt, left_ih, right_ih, Matches]
  | andThen first second first_ih second_ih =>
      have first_step : ((first.step char).seq second).Matches text ↔
          ∃ front back, text = front ++ back ∧ first.Matches (char :: front) ∧
            second.Matches back := by
        simp [matches_seq, Matches, first_ih]
      rw [step, matches_andThen_cons, ← nullable_iff]
      split
      · rename_i is_nullable
        rw [matches_alt, first_step, second_ih]
        simp [is_nullable]
      · rename_i not_nullable
        rw [first_step]
        simp [not_nullable]
  | many inner ih =>
      rw [step, matches_seq, matches_many_cons]
      simp only [Matches, ih]

theorem not_matches_of_isNever {pattern : Pattern} (is_never : pattern.isNever = true)
    (text : List Char) : ¬ pattern.Matches text := by
  cases pattern <;> simp_all [isNever, Matches]

end Pattern
end WorkItemQuery
