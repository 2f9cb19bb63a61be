import WorkItemQuery.Proofs.Token.Pattern
import WorkItemQuery.Token.Lexer

/-!
# The longest accepted text

The rules that are alive after some characters have left to match what completes those characters.
So the longest text that a rule accepts is found, with the kind that the text has by itself.
-/

namespace WorkItemQuery
namespace Lexer

/-- The rules that are still alive after a text, with what each has left to match. -/
def alive (rules : List Rule) (text : List Char) : List Rule :=
  text.foldl (fun rules char => advance char rules) rules

/-- The kind of a text by itself, if some rule accepts the whole of it. -/
def kindOf? (text : List Char) : Option Kind := accepted (alive Rule.all text)

variable {rules : List Rule} {rule : Rule} {text : List Char} {kind : Kind}

@[simp]
theorem alive_nil : alive rules [] = rules := rfl

@[simp]
theorem alive_cons (char : Char) : alive rules (char :: text) = alive (advance char rules) text :=
  rfl

theorem alive_append (front back : List Char) :
    alive rules (front ++ back) = alive (alive rules front) back := List.foldl_append

theorem alive_of_nil (text : List Char) : alive [] text = [] := by
  induction text with
  | nil => rfl
  | cons char text ih => exact ih

theorem mem_advance {char : Char} : rule ∈ advance char rules ↔
    ∃ origin ∈ rules, (origin.pattern.step char).isNever = false ∧
      rule = { origin with pattern := origin.pattern.step char } := by
  rw [advance, List.mem_filterMap]
  constructor
  · rintro ⟨origin, mem, rule_eq⟩
    dsimp only at rule_eq
    split at rule_eq
    · cases rule_eq
    · rename_i not_never
      exact ⟨origin, mem, by simpa using not_never, (Option.some.inj rule_eq).symm⟩
  · rintro ⟨origin, mem, not_never, rfl⟩
    exact ⟨origin, mem, by simp [not_never]⟩

/-- A rule that is alive comes from one that accepts what it completes. -/
theorem exists_of_mem_alive (mem : rule ∈ alive rules text) :
    ∃ origin ∈ rules, origin.kind = rule.kind ∧
      ∀ more, rule.pattern.Matches more ↔ origin.pattern.Matches (text ++ more) := by
  induction text generalizing rules with
  | nil => exact ⟨rule, mem, rfl, fun _ => Iff.rfl⟩
  | cons char text ih =>
      obtain ⟨middle, middle_mem, kind_eq, matches_iff⟩ := ih mem
      obtain ⟨origin, origin_mem, -, rfl⟩ := mem_advance.1 middle_mem
      refine ⟨origin, origin_mem, kind_eq, fun more => ?_⟩
      rw [matches_iff, Pattern.matches_step, List.cons_append]

/-- A rule that accepts a text is alive after it. -/
theorem exists_mem_alive (mem : rule ∈ rules) (accepts : rule.pattern.Matches text) :
    ∃ final ∈ alive rules text, final.kind = rule.kind ∧ final.pattern.Matches [] := by
  induction text generalizing rules rule with
  | nil => exact ⟨rule, mem, rfl, accepts⟩
  | cons char text ih =>
      rw [← Pattern.matches_step] at accepts
      have not_never : (rule.pattern.step char).isNever = false := by
        rw [Bool.eq_false_iff]
        exact fun is_never => Pattern.not_matches_of_isNever is_never text accepts
      have stepped : { rule with pattern := rule.pattern.step char } ∈ advance char rules :=
        mem_advance.2 ⟨rule, mem, not_never, rfl⟩
      have found := ih stepped accepts
      exact found

theorem exists_of_accepted (accepted_eq : accepted rules = some kind) :
    ∃ rule ∈ rules, rule.kind = kind ∧ rule.pattern.Matches [] := by
  obtain ⟨rule, found, rfl⟩ := Option.map_eq_some_iff.1 accepted_eq
  have is_nullable : rule.pattern.nullable = true := by
    simpa using List.find?_some found
  exact ⟨rule, List.mem_of_find?_eq_some found, rfl, Pattern.nullable_iff.1 is_nullable⟩

theorem accepted_eq_none_iff :
    accepted rules = none ↔ ∀ rule ∈ rules, ¬ rule.pattern.Matches [] := by
  simp [accepted, ← Pattern.nullable_iff]

/-- Some rule of its kind accepts a text that has a kind. -/
theorem exists_rule_of_kindOf? (kind_eq : kindOf? text = some kind) :
    ∃ rule ∈ Rule.all, rule.kind = kind ∧ rule.pattern.Matches text := by
  obtain ⟨final, final_mem, rfl, accepts⟩ := exists_of_accepted kind_eq
  obtain ⟨rule, mem, kind_eq, matches_iff⟩ := exists_of_mem_alive final_mem
  refine ⟨rule, mem, kind_eq, ?_⟩
  simpa using (matches_iff []).1 accepts

/-- A text has no kind if no rule accepts it. -/
theorem kindOf?_eq_none (rejects : ∀ rule ∈ Rule.all, ¬ rule.pattern.Matches text) :
    kindOf? text = none := by
  refine accepted_eq_none_iff.2 fun final final_mem accepts => ?_
  obtain ⟨rule, mem, -, matches_iff⟩ := exists_of_mem_alive final_mem
  exact rejects rule mem (by simpa using (matches_iff []).1 accepts)

/-! ## The longest accepted text -/

/-- What is found has been found before, or is an accepted start of the text. -/
theorem accepted_of_longestFrom {read length : Nat} {best : Option (Kind × Nat)}
    (longest_eq : longestFrom rules read best text = (some kind, length)) :
    best = some (kind, length) ∨
      ∃ front back, text = front ++ back ∧ front ≠ [] ∧ length = read + front.length ∧
        accepted (alive rules front) = some kind := by
  have of_stopped : ∀ read best, longestFrom.stopped read best = (some kind, length) →
      best = some (kind, length) := by
    intro read best stopped_eq
    cases best with
    | none => cases stopped_eq
    | some pair =>
        cases stopped_eq
        rfl
  induction text generalizing rules read best with
  | nil => exact .inl (of_stopped _ _ longest_eq)
  | cons char text ih =>
      rw [longestFrom] at longest_eq
      split at longest_eq
      · exact .inl (of_stopped _ _ longest_eq)
      · obtain best_eq | ⟨front, back, rfl, -, length_eq, accepted_eq⟩ := ih longest_eq
        · split at best_eq
          · rename_i accepted_eq
            cases best_eq
            exact .inr ⟨[char], text, rfl, nofun, rfl, accepted_eq⟩
          · exact .inl best_eq
        · refine .inr ⟨char :: front, back, rfl, nofun, ?_, accepted_eq⟩
          rw [length_eq, List.length_cons]
          omega

/-- The kind that is found is the kind of the text by itself. -/
theorem kindOf?_of_longest {length : Nat} (longest_eq : longest text = (some kind, length)) :
    kindOf? (text.take length) = some kind ∧ 0 < length := by
  obtain ⟨⟨⟩⟩ | ⟨front, back, rfl, not_nil, rfl, accepted_eq⟩ := accepted_of_longestFrom longest_eq
  rw [Nat.zero_add, List.take_left]
  exact ⟨accepted_eq, List.length_pos_iff.2 not_nil⟩

/-- A text is the longest accepted one if nothing behind it can be added. -/
def NotExtended (rules : List Rule) (text : List Char) : Prop :=
  ∀ more behind, text = more ++ behind → more ≠ [] → accepted (alive rules more) = none

theorem longestFrom_of_best {read length : Nat} {rules : List Rule}
    (not_extended : NotExtended rules text) :
    longestFrom rules read (some (kind, length)) text = (some kind, length) := by
  induction text generalizing rules read with
  | nil => rfl
  | cons char text ih =>
      rw [longestFrom]
      split
      · rfl
      · have rejected : accepted (advance char rules) = none :=
          not_extended [char] text rfl nofun
        rw [rejected]
        refine ih fun more behind text_eq not_nil => ?_
        exact not_extended (char :: more) behind (by rw [text_eq, List.cons_append]) nofun

theorem longestFrom_of_accepted {read : Nat} {best : Option (Kind × Nat)} {rules : List Rule}
    {rest : List Char} (accepted_eq : accepted (alive rules text) = some kind) (not_nil : text ≠ [])
    (not_extended : NotExtended (alive rules text) rest) :
    longestFrom rules read best (text ++ rest) = (some kind, read + text.length) := by
  induction text generalizing rules read best with
  | nil => exact absurd rfl not_nil
  | cons char text ih =>
      rw [List.cons_append, longestFrom]
      split
      · rename_i dead
        rw [alive_cons, dead, alive_of_nil] at accepted_eq
        cases accepted_eq
      · cases text with
        | nil =>
            rw [alive_cons, alive_nil] at accepted_eq
            rw [accepted_eq]
            exact longestFrom_of_best not_extended
        | cons next text =>
            rw [ih accepted_eq nofun not_extended]
            simp only [List.length_cons, Prod.mk.injEq, true_and]
            omega

/-- A text with a kind is found in front of what cannot be added to it. -/
theorem longest_of_kindOf? {rest : List Char} (kind_eq : kindOf? text = some kind)
    (not_nil : text ≠ [])
    (not_extended : ∀ more behind, rest = more ++ behind → more ≠ [] →
      kindOf? (text ++ more) = none) :
    longest (text ++ rest) = (some kind, text.length) := by
  rw [longest, longestFrom_of_accepted kind_eq not_nil, Nat.zero_add]
  intro more behind rest_eq more_not_nil
  rw [← alive_append]
  exact not_extended more behind rest_eq more_not_nil

end Lexer
end WorkItemQuery
