import WorkItemQuery.Proofs.Token.Longest

/-!
# The characters of patterns

Most rules are told apart by the first character of a text, or by the characters that a text may
have at all.  Words are read without regard to case.
-/

namespace WorkItemQuery

/-- What is said of all characters of a list is decided by going through the list. -/
instance (priority := 2000) decidableForallChar (chars : List Char) (holds : Char → Prop)
    [DecidablePred holds] : Decidable (∀ char ∈ chars, holds char) :=
  List.decidableBAll holds chars

/-- What is said of the character at an end of a text is decided by looking there. -/
instance (priority := 2000) decidableForallEnd (char? : Option Char) (holds : Char → Prop)
    [DecidablePred holds] : Decidable (∀ char ∈ char?, holds char) :=
  match char? with
  | none => .isTrue nofun
  | some char => decidable_of_iff (holds char) (by simp)

namespace Pattern

/-- The character may be the first of a text of the pattern. -/
def starts (char : Char) : Pattern → Bool
  | .never => false
  | .done => false
  | .one accepts => accepts char
  | .either left right => left.starts char || right.starts char
  | .andThen first second => first.starts char || (first.nullable && second.starts char)
  | .many inner => inner.starts char

/-- The character may stand in a text of the pattern. -/
def uses (char : Char) : Pattern → Bool
  | .never => false
  | .done => false
  | .one accepts => accepts char
  | .either left right => left.uses char || right.uses char
  | .andThen first second => first.uses char || second.uses char
  | .many inner => inner.uses char

/-- The character stands at the end of a text of the pattern only. -/
def closedBy (char : Char) : Pattern → Bool
  | .never => true
  | .done => true
  | .one _ => true
  | .andThen first second => !first.uses char && second.closedBy char
  | _ => false

/-- The patterns between which a pattern chooses. -/
def branches : Pattern → List Pattern
  | .either left right => left.branches ++ right.branches
  | pattern => [pattern]

theorem starts_of_matches {pattern : Pattern} {char : Char} {text : List Char}
    (accepts : pattern.Matches (char :: text)) : pattern.starts char = true := by
  induction pattern generalizing text with
  | never => cases accepts
  | done => cases accepts
  | one test =>
      obtain ⟨_, ⟨⟩, accepted⟩ := accepts
      exact accepted
  | either left right left_ih right_ih =>
      rw [starts, Bool.or_eq_true]
      exact accepts.imp left_ih right_ih
  | andThen first second first_ih second_ih =>
      rw [starts, Bool.or_eq_true, Bool.and_eq_true]
      obtain ⟨front, back, -, first_accepts, -⟩ | ⟨first_accepts, second_accepts⟩ :=
        matches_andThen_cons.1 accepts
      · exact .inl (first_ih first_accepts)
      · exact .inr ⟨nullable_iff.2 first_accepts, second_ih second_accepts⟩
  | many inner ih =>
      obtain ⟨front, back, -, inner_accepts, -⟩ := matches_many_cons.1 accepts
      exact ih inner_accepts

theorem uses_of_matches {pattern : Pattern} {char : Char} {text : List Char}
    (accepts : pattern.Matches text) (mem : char ∈ text) : pattern.uses char = true := by
  induction pattern generalizing text with
  | never => cases accepts
  | done =>
      rw [show text = [] from accepts] at mem
      cases mem
  | one test =>
      obtain ⟨other, rfl, accepted⟩ := accepts
      rw [List.mem_singleton.1 mem]
      exact accepted
  | either left right left_ih right_ih =>
      rw [uses, Bool.or_eq_true]
      exact accepts.imp (fun accepts => left_ih accepts mem) fun accepts => right_ih accepts mem
  | andThen first second first_ih second_ih =>
      obtain ⟨front, back, rfl, first_accepts, second_accepts⟩ := accepts
      rw [uses, Bool.or_eq_true]
      exact (List.mem_append.1 mem).imp (first_ih first_accepts) (second_ih second_accepts)
  | many inner ih =>
      obtain ⟨parts, rfl, all_accepts⟩ := accepts
      obtain ⟨part, part_mem, mem⟩ := List.mem_flatten.1 mem
      exact ih (all_accepts part part_mem) mem

theorem exists_branch {pattern : Pattern} {text : List Char} (accepts : pattern.Matches text) :
    ∃ branch ∈ pattern.branches, branch.Matches text := by
  induction pattern with
  | either left right left_ih right_ih =>
      obtain accepts | accepts := accepts
      · obtain ⟨branch, mem, accepts⟩ := left_ih accepts
        exact ⟨branch, List.mem_append_left _ mem, accepts⟩
      · obtain ⟨branch, mem, accepts⟩ := right_ih accepts
        exact ⟨branch, List.mem_append_right _ mem, accepts⟩
  | never | done | one | andThen | many => exact ⟨_, .head _, accepts⟩

/-- A first part without a character ends before the character. -/
theorem matches_andThen_of_not_uses {first second : Pattern} {char : Char}
    {text more : List Char} (not_uses : first.uses char = false)
    (accepts : (andThen first second).Matches (text ++ char :: more)) :
    ∃ front back, text = front ++ back ∧ first.Matches front ∧
      second.Matches (back ++ char :: more) := by
  obtain ⟨front, back, text_eq, first_accepts, second_accepts⟩ := accepts
  obtain ⟨between, front_eq, char_eq⟩ | ⟨between, rfl, rfl⟩ := List.append_eq_append_iff.1 text_eq
  · cases between with
    | nil =>
        refine ⟨front, [], by simpa using front_eq.symm, first_accepts, ?_⟩
        rwa [List.nil_append, char_eq, List.nil_append]
    | cons other between =>
        obtain ⟨rfl, -⟩ := List.cons.inj char_eq
        have mem : char ∈ front := by simp [front_eq]
        rw [uses_of_matches first_accepts mem] at not_uses
        cases not_uses
  · exact ⟨front, between, rfl, first_accepts, second_accepts⟩

theorem eq_nil_of_closedBy {pattern : Pattern} {char : Char} {text more : List Char}
    (closed : pattern.closedBy char = true) (accepts : pattern.Matches (text ++ char :: more)) :
    more = [] := by
  induction pattern generalizing text with
  | never => cases accepts
  | done => simp [Matches] at accepts
  | one test =>
      obtain ⟨other, text_eq, -⟩ := accepts
      have lengths := congrArg List.length text_eq
      simp only [List.length_append, List.length_cons, List.length_nil] at lengths
      exact List.eq_nil_of_length_eq_zero (by omega)
  | andThen first second first_ih second_ih =>
      rw [closedBy, Bool.and_eq_true, Bool.not_eq_true'] at closed
      obtain ⟨front, back, -, -, accepts⟩ := matches_andThen_of_not_uses closed.1 accepts
      exact second_ih closed.2 accepts
  | either | many => cases closed

end Pattern

namespace Rule

/-- The texts of a word are those with its letters, in either case. -/
theorem matches_letters {letters text : List Char} :
    (Rule.letters letters).Matches text ↔ text.map foldCase = letters := by
  have matches_letter : ∀ (expected : Char) (text : List Char),
      (letter expected).Matches text ↔ text.map foldCase = [expected] := by
    intro expected text
    simp only [letter, Pattern.Matches, beq_iff_eq, List.map_eq_singleton_iff]
  induction letters generalizing text with
  | nil => simp [Rule.letters, Pattern.Matches]
  | cons first rest ih =>
      cases rest with
      | nil => exact matches_letter first text
      | cons next rest =>
          simp only [Rule.letters, Pattern.Matches, matches_letter, ih]
          constructor
          · rintro ⟨front, back, rfl, front_eq, back_eq⟩
            rw [List.map_append, front_eq, back_eq]
            rfl
          · intro text_eq
            obtain ⟨char, text, rfl, char_eq, text_eq⟩ := List.map_eq_cons_iff.1 text_eq
            exact ⟨[char], text, rfl, by simp [char_eq], text_eq⟩

theorem matches_word {word : String} {text : List Char} :
    (Rule.word word).Matches text ↔ text.map foldCase = word.toList := matches_letters

/-- Every rule has a kind of its own. -/
theorem eq_of_kind_eq {rule other : Rule} (mem : rule ∈ all) (other_mem : other ∈ all)
    (kind_eq : rule.kind = other.kind) : rule = other := by
  have distinct : all.Pairwise fun rule other => rule.kind ≠ other.kind := by decide
  have same : all.Pairwise fun rule other => rule.kind = other.kind → rule = other :=
    distinct.imp fun ne kind_eq => absurd kind_eq ne
  have same_flipped : all.Pairwise (flip fun rule other => rule.kind = other.kind → rule = other) :=
    distinct.imp fun ne kind_eq => absurd kind_eq.symm ne
  exact same.forall_of_forall_of_flip (fun _ _ _ => rfl) same_flipped mem other_mem kind_eq

/-! ## Rules of open texts -/

theorem string_mem : ⟨.string, .either (closedLiteral '\'') (closedLiteral '"')⟩ ∈ all := by
  simp [all, openRules]

theorem openString_mem : ⟨.openString, .either (openLiteral '\'') (openLiteral '"')⟩ ∈ all := by
  simp [all, openRules]

theorem identifier_mem : ⟨.identifier, .either bracketedName bareName⟩ ∈ all := by
  simp [all, openRules]

theorem digits_mem : ⟨.digits, .oneOrMore (.one Char.isDigit)⟩ ∈ all := by simp [all, openRules]

theorem variable_mem : ⟨.variableRef, .andThen (.exactly '@') namePart⟩ ∈ all := by
  simp [all, openRules]

theorem whitespace_mem : ⟨.whitespace, .oneOrMore (.one isBlank)⟩ ∈ all := by simp [all, openRules]

theorem newline_mem : ⟨.newline, .either (.exactly '\n') (.literal ['\r', '\n'])⟩ ∈ all := by
  simp [all, openRules]

end Rule
end WorkItemQuery
