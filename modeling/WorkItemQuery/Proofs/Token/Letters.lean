import WorkItemQuery.Proofs.Token.Alphabet

/-!
# Letters

A word may be written in either case, and with the long s and the Kelvin sign for two of its
letters.  All other characters of a word are letters of names as well.
-/

namespace WorkItemQuery

/-! ## The two cases of a letter -/

/-- The capital letters. -/
def capitals : List Char := (List.range 26).map fun index => .ofNat (index + 65)

theorem toLower_eq_or_mem_capitals (char : Char) : char.toLower = char ∨ char ∈ capitals := by
  by_cases is_capital : char.val ≥ 'A'.val ∧ char.val ≤ 'Z'.val
  · have least : 65 ≤ char.toNat := UInt32.le_iff_toNat_le.1 is_capital.1
    have greatest : char.toNat ≤ 90 := UInt32.le_iff_toNat_le.1 is_capital.2
    refine .inr (List.mem_map.2 ⟨char.toNat - 65, List.mem_range.2 (by omega), ?_⟩)
    rw [Nat.sub_add_cancel least, Char.ofNat_toNat]
  · exact .inl (dif_neg is_capital)

/-- What does not tell the cases of the letters apart is the same for both of them. -/
theorem eq_of_toLower_eq {α : Type} (test : Char → α)
    (ignores : ∀ char ∈ capitals, test char.toLower = test char) {char char' : Char}
    (lower_eq : char'.toLower = char.toLower) : test char' = test char := by
  have test_toLower : ∀ char, test char.toLower = test char := by
    intro char
    obtain same | mem := toLower_eq_or_mem_capitals char
    · rw [same]
    · exact ignores char mem
  rw [← test_toLower char', lower_eq, test_toLower]

theorem utf8Size_eq_of_toLower_eq {char char' : Char} (lower_eq : char'.toLower = char.toLower) :
    char'.utf8Size = char.utf8Size :=
  eq_of_toLower_eq Char.utf8Size (by decide) lower_eq

/-! ## Letters of words -/

namespace Rule

/-- The characters that stand for a letter in words, but not in names. -/
def foreignLetters : List Char := ['\u017f', '\u212a']

/-- All characters are folded to themselves but capital letters and those that stand for a letter. -/
@[elab_as_elim]
theorem foldCase_cases {holds : Char → Prop} (foreign : ∀ char ∈ foreignLetters, holds char)
    (large : ∀ char ∈ capitals, holds char) (other : ∀ char, foldCase char = char → holds char)
    (char : Char) : holds char := by
  by_cases mem : char ∈ foreignLetters
  · exact foreign char mem
  · obtain same | capital := toLower_eq_or_mem_capitals char
    · simp only [foreignLetters, List.mem_cons, List.not_mem_nil, or_false, not_or] at mem
      exact other char (by rw [foldCase, if_neg mem.1, if_neg mem.2, same])
    · exact large char capital

@[simp]
theorem foldCase_foldCase (char : Char) : foldCase (foldCase char) = foldCase char := by
  have foreign_eq : ∀ char ∈ foreignLetters, foldCase (foldCase char) = foldCase char := by decide
  have large_eq : ∀ char ∈ capitals, foldCase (foldCase char) = foldCase char := by decide
  cases char using foldCase_cases with
  | foreign char mem => exact foreign_eq char mem
  | large char mem => exact large_eq char mem
  | other char same => rw [same, same]

/-- A blank has no other case. -/
theorem isGap_foldCase (char : Char) : isGap (foldCase char) = isGap char := by
  have foreign_eq : ∀ char ∈ foreignLetters, isGap (foldCase char) = isGap char := by decide
  have large_eq : ∀ char ∈ capitals, isGap (foldCase char) = isGap char := by decide
  cases char using foldCase_cases with
  | foreign char mem => exact foreign_eq char mem
  | large char mem => exact large_eq char mem
  | other char same => rw [same]

/-- What is folded to no letter is folded to itself. -/
theorem foldCase_eq_of_not_isLower {char : Char} (not_letter : (foldCase char).isLower = false) :
    foldCase char = char := by
  have foreign_letter : ∀ char ∈ foreignLetters, (foldCase char).isLower = true := by decide
  have large_letter : ∀ char ∈ capitals, (foldCase char).isLower = true := by decide
  cases char using foldCase_cases with
  | foreign char mem => rw [foreign_letter char mem] at not_letter; cases not_letter
  | large char mem => rw [large_letter char mem] at not_letter; cases not_letter
  | other char same => exact same

theorem isNameStart_or_mem_foreignLetters {char : Char}
    (is_letter : (foldCase char).isLower = true) :
    isNameStart char = true ∨ char ∈ foreignLetters := by
  have large_letter : ∀ char ∈ capitals, isNameStart char = true := by decide
  cases char using foldCase_cases with
  | foreign char mem => exact .inr mem
  | large char mem => exact .inl (large_letter char mem)
  | other char same =>
      rw [same] at is_letter
      have letter_or_bar : (char.isUpper || char.isLower || char == '_') = true := by
        rw [is_letter, Bool.or_true, Bool.true_or]
      exact .inl letter_or_bar

end Rule
end WorkItemQuery
