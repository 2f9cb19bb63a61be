import Mathlib.Data.List.TakeDrop
import WorkItemQuery.Proofs.Json.Spelling

/-!
# Reading strings and numbers

Each text of a string is read as that string, whatever follows it.  The text of a number is read as
that number where nothing follows that could belong to it.
-/

namespace WorkItemQuery
namespace Json

variable {char : Char} {text rest : List Char}

/-! ## Strings -/

theorem fourDigits_append {code : Nat} (spells : SpellsCode code text) (rest : List Char) :
    fourDigits (text ++ rest) = .ok (code, rest) := by
  obtain ⟨a, b, c, d, values_eq, rfl⟩ := spells
  simp only [List.map_eq_cons_iff, List.map_eq_nil_iff] at values_eq
  obtain ⟨p, _, rfl, p_eq, q, _, rfl, q_eq, r, _, rfl, r_eq, s, _, rfl, s_eq, rfl⟩ := values_eq
  simp only [List.cons_append, List.nil_append, fourDigits, p_eq, q_eq, r_eq, s_eq]

/-- No character has a code that is kept for halves of other codes. -/
theorem toNat_lt_or (char : Char) :
    char.toNat < 0xd800 ∨ 0xdfff < char.toNat ∧ char.toNat < 0x110000 := char.valid

theorem codeEscape_append (spells : SpellsCode char.toNat text) (rest : List Char) :
    codeEscape (text ++ rest) = .ok (char, rest) := by
  have valid := toNat_lt_or char
  simp only [codeEscape, fourDigits_append spells, bind, Except.bind]
  rw [if_neg (by omega), if_pos (by omega), Char.ofNat_toNat]
  rfl

theorem codeEscape_append_pair {high low : List Char} (beyond : 0x10000 ≤ char.toNat)
    (high_spells : SpellsCode (0xd800 + (char.toNat - 0x10000) / 0x400) high)
    (low_spells : SpellsCode (0xdc00 + (char.toNat - 0x10000) % 0x400) low) (rest : List Char) :
    codeEscape (high ++ '\\' :: 'u' :: (low ++ rest)) = .ok (char, rest) := by
  have valid := toNat_lt_or char
  simp only [codeEscape, fourDigits_append high_spells, fourDigits_append low_spells, expectEscape,
    bind, Except.bind, if_true]
  rw [if_neg (by omega), if_neg (by omega), if_neg (by omega)]
  have code_eq : (0xd800 + (char.toNat - 0x10000) / 0x400 - 0xd800) * 0x400 +
      (0xdc00 + (char.toNat - 0x10000) % 0x400 - 0xdc00) + 0x10000 = char.toNat := by omega
  rw [code_eq, Char.ofNat_toNat]
  rfl

theorem escape_of_mem_shortEscapes {letter : Char} (mem : (letter, char) ∈ shortEscapes)
    (rest : List Char) : escape (letter :: rest) = .ok (char, rest) := by
  simp only [shortEscapes, List.mem_cons, Prod.mk.injEq, List.not_mem_nil, or_false] at mem
  obtain ⟨rfl, rfl⟩ | ⟨rfl, rfl⟩ | ⟨rfl, rfl⟩ | ⟨rfl, rfl⟩ | ⟨rfl, rfl⟩ | ⟨rfl, rfl⟩ | ⟨rfl, rfl⟩ |
    ⟨rfl, rfl⟩ := mem <;> rfl

theorem stringWithin_plain (not_quote : char ≠ '"') (not_backslash : char ≠ '\\')
    (not_control : 0x20 ≤ char.toNat) (steps : Nat) (rest : List Char) :
    stringWithin (steps + 1) (char :: rest) =
      Prod.map (char :: ·) id <$> stringWithin steps rest := by
  rw [stringWithin, if_neg (by omega)]
  · rfl
  · simpa using not_quote
  · simpa using not_backslash

theorem stringWithin_escape {steps : Nat} (escape_eq : escape text = .ok (char, rest)) :
    stringWithin (steps + 1) ('\\' :: text) =
      Prod.map (char :: ·) id <$> stringWithin steps rest := by
  simp only [stringWithin, escape_eq, bind, Except.bind]
  rfl

/-- One character of a string takes one step, however it is written. -/
theorem stringWithin_of_spellsChar (spells : SpellsChar char text) (steps : Nat)
    (rest : List Char) :
    stringWithin (steps + 1) (text ++ rest) =
      Prod.map (char :: ·) id <$> stringWithin steps rest := by
  cases spells with
  | plain not_quote not_backslash not_control =>
      exact stringWithin_plain not_quote not_backslash not_control steps rest
  | letter mem => exact stringWithin_escape (escape_of_mem_shortEscapes mem rest)
  | code spells => exact stringWithin_escape (codeEscape_append spells rest)
  | pair beyond high_spells low_spells =>
      rw [List.append_assoc]
      exact stringWithin_escape (codeEscape_append_pair beyond high_spells low_spells rest)

theorem stringWithin_append {chars : List Char} {parts : List (List Char)}
    (spells : List.Forall₂ SpellsChar chars parts) (rest : List Char) {steps : Nat}
    (enough : chars.length < steps) :
    stringWithin steps (parts.flatten ++ '"' :: rest) = .ok (chars, rest) := by
  obtain ⟨steps, rfl⟩ := Nat.exists_eq_add_one.mpr (Nat.zero_lt_of_lt enough)
  induction spells generalizing steps with
  | nil => rfl
  | cons spells_char _ ih =>
      have more := Nat.lt_of_succ_lt_succ enough
      obtain ⟨steps, rfl⟩ := Nat.exists_eq_add_one.mpr (Nat.zero_lt_of_lt more)
      rw [List.flatten_cons, List.append_assoc, stringWithin_of_spellsChar spells_char,
        ih steps more]
      rfl

theorem SpellsChar.length_pos (spells : SpellsChar char text) : 0 < text.length := by
  cases spells <;> exact Nat.zero_lt_succ _

theorem length_le_length_flatten {chars : List Char} {parts : List (List Char)}
    (spells : List.Forall₂ SpellsChar chars parts) : chars.length ≤ parts.flatten.length := by
  induction spells with
  | nil => exact Nat.le_refl 0
  | cons spells_char _ ih =>
      have length_pos := spells_char.length_pos
      rw [List.flatten_cons, List.length_append, List.length_cons]
      omega

/-- A string is read behind its opening quote. -/
theorem SpellsString.exists_body {value : String} (spells : SpellsString value text) :
    ∃ body, text = '"' :: body ∧ ∀ rest, readString (body ++ rest) = .ok (value, rest) := by
  obtain ⟨parts, spells_chars, rfl⟩ := spells
  refine ⟨parts.flatten ++ ['"'], rfl, fun rest => ?_⟩
  have body_eq : parts.flatten ++ ['"'] ++ rest = parts.flatten ++ '"' :: rest :=
    List.append_cons .. |>.symm
  have enough : value.toList.length < (parts.flatten ++ '"' :: rest).length + 1 := by
    have length_le := length_le_length_flatten spells_chars
    rw [List.length_append]
    omega
  simp only [readString, body_eq, stringWithin_append spells_chars rest enough, bind, Except.bind,
    String.ofList_toList]
  rfl

/-! ## Numbers -/

/-- No digit stands in front. -/
def NoDigit (rest : List Char) : Prop := ∀ char ∈ rest.head?, char.isDigit = false

theorem digits_append (all_digits : ∀ char ∈ text, char.isDigit = true) (no_digit : NoDigit rest) :
    digits (text ++ rest) = (text, rest) := by
  rw [digits, List.span_eq_takeWhile_dropWhile, List.takeWhile_append_of_pos all_digits,
    List.dropWhile_append_of_pos all_digits]
  cases rest with
  | nil => simp
  | cons char rest =>
      have not_digit := no_digit char rfl
      simp [not_digit]

theorem wholePart_append (is_whole : IsWhole text) (no_digit : NoDigit rest) :
    wholePart (text ++ rest) = .ok (text, rest) := by
  obtain rfl | ⟨⟨not_empty, all_digits⟩, not_zero⟩ := is_whole
  · cases rest with
    | nil => rfl
    | cons char rest =>
        have not_digit := no_digit char rfl
        simp [wholePart, not_digit]
  · cases text with
    | nil => contradiction
    | cons first text =>
        rw [List.cons_append, wholePart, if_pos (all_digits first (.head _)), ← List.cons_append,
          digits_append all_digits no_digit]
        exact fun first_eq => not_zero (congrArg some first_eq)

theorem fractionPart_append {fraction pointed : List Char}
    (spells : SpellsFraction fraction pointed) (no_digit : NoDigit rest)
    (no_point : rest.head? ≠ some '.') :
    fractionPart (pointed ++ rest) = .ok (fraction, rest) := by
  obtain ⟨rfl, rfl⟩ | ⟨⟨not_empty, all_digits⟩, rfl⟩ := spells
  · rw [List.nil_append, fractionPart]
    rintro rest rfl
    exact no_point rfl
  · rw [List.cons_append, fractionPart, digits_append all_digits no_digit]
    cases fraction with
    | nil => contradiction
    | cons first fraction => rfl

/-- Digits appended to a number. -/
def appendDigits (value : Nat) (digits : List Char) : Nat :=
  digits.foldl (fun value digit => 10 * value + (digit.toNat - '0'.toNat)) value

theorem le_appendDigits (value : Nat) (digits : List Char) : value ≤ appendDigits value digits := by
  induction digits generalizing value with
  | nil => exact Nat.le_refl value
  | cons digit digits ih =>
      have le := ih (10 * value + (digit.toNat - '0'.toNat))
      exact Nat.le_trans (by omega) le

/-- The digits of an exponent are read to the end where it is not too large, or may be. -/
theorem exponentFrom_append {refuse : Bool} {value : Nat}
    (all_digits : ∀ char ∈ text, char.isDigit = true) (no_digit : NoDigit rest)
    (is_kept : refuse = false ∨ appendDigits value text ≤ maxExponent) :
    exponentFrom refuse (min value (10 * maxExponent)) (text ++ rest) =
      .ok (min (appendDigits value text) (10 * maxExponent), rest) := by
  induction text generalizing value with
  | nil =>
      cases rest with
      | nil => rfl
      | cons char rest =>
        rw [List.nil_append, exponentFrom, if_neg (by simp [no_digit char rfl])]
        rfl
  | cons digit text ih =>
      have next_le := le_appendDigits (10 * value + (digit.toNat - '0'.toNat)) text
      have not_refused : ¬(maxExponent <
          10 * min value (10 * maxExponent) + (digit.toNat - '0'.toNat) ∧ refuse) := by
        rintro ⟨large, refused⟩
        obtain not_refused | kept := is_kept
        · exact Bool.false_ne_true (not_refused.symm.trans refused)
        · have kept : appendDigits (10 * value + (digit.toNat - '0'.toNat)) text ≤ maxExponent :=
            kept
          omega
      have next_eq : min (10 * min value (10 * maxExponent) + (digit.toNat - '0'.toNat))
          (10 * maxExponent) = min (10 * value + (digit.toNat - '0'.toNat)) (10 * maxExponent) := by
        omega
      rw [List.cons_append, exponentFrom, if_pos (all_digits digit (.head _)), if_neg not_refused,
        next_eq]
      exact ih (fun char mem => all_digits char (.tail _ mem)) is_kept

theorem exponentSize_eq (digits : List Char) :
    exponentSize digits = min (appendDigits 0 digits) (10 * maxExponent) := rfl

/-- The sign of an exponent is negative, and the text behind the sign. -/
def exponentSign (text : List Char) : Bool × List Char :=
  match text with
  | '+' :: rest => (false, rest)
  | '-' :: rest => (true, rest)
  | rest => (false, rest)

theorem exponentSign_of_isDigit (is_digit : char.isDigit = true) (text : List Char) :
    exponentSign (char :: text) = (false, char :: text) := by
  rw [exponentSign]
  all_goals
    rintro rest text_eq
    obtain ⟨rfl, -⟩ := List.cons.inj text_eq
    exact Bool.false_ne_true is_digit

/-- Behind the mark and the sign of an exponent come its digits. -/
theorem exponentPart_of_sign {isZero negative : Bool} {mark : Char} {signed : List Char}
    (is_mark : mark = 'e' ∨ mark = 'E') (sign_eq : exponentSign signed = (negative, char :: text))
    (is_digit : char.isDigit = true) :
    exponentPart isZero (mark :: signed) =
      Prod.map (fun size : Nat => if negative then -(size : Int) else size) id <$>
        exponentFrom (!isZero && !negative) 0 (char :: text) := by
  rw [exponentSign.eq_def] at sign_eq
  split at sign_eq
  all_goals
    obtain ⟨rfl, rfl⟩ := Prod.mk.inj sign_eq
    rw [exponentPart.eq_def]
    simp only [if_pos is_mark, if_pos is_digit]
    rfl

theorem exponentPart_digits {isZero negative : Bool} {mark : Char} {sign digits : List Char}
    (is_mark : mark = 'e' ∨ mark = 'E')
    (sign_eq : exponentSign (sign ++ (digits ++ rest)) = (negative, digits ++ rest))
    (is_digits : IsDigits digits) (no_digit : NoDigit rest)
    (is_kept : (!isZero && !negative) = false ∨ appendDigits 0 digits ≤ maxExponent) :
    exponentPart isZero (mark :: (sign ++ (digits ++ rest))) =
      .ok (if negative then -(exponentSize digits : Int) else exponentSize digits, rest) := by
  obtain ⟨not_empty, all_digits⟩ := is_digits
  obtain ⟨first, digits, rfl⟩ := List.exists_cons_of_ne_nil not_empty
  have size_eq := exponentFrom_append all_digits no_digit is_kept
  rw [Nat.zero_min] at size_eq
  rw [exponentPart_of_sign is_mark sign_eq (all_digits first (.head _))]
  exact congrArg (_ <$> ·) size_eq

theorem exponentPart_append {isZero : Bool} {size : Int} {exponent : List Char}
    (spells : SpellsExponent isZero size exponent) (no_digit : NoDigit rest)
    (no_mark : rest.head? ≠ some 'e' ∧ rest.head? ≠ some 'E') :
    exponentPart isZero (exponent ++ rest) = .ok (size, rest) := by
  cases spells with
  | absent =>
      cases rest with
      | nil => rfl
      | cons char rest =>
        rw [List.nil_append, exponentPart.eq_def]
        refine if_neg ?_
        rintro (rfl | rfl)
        · exact no_mark.1 rfl
        · exact no_mark.2 rfl
  | @positive mark sign digits is_mark is_sign is_digits is_kept =>
      have sign_eq : exponentSign (sign ++ (digits ++ rest)) = (false, digits ++ rest) := by
        obtain rfl | rfl := is_sign
        · obtain ⟨first, digits, rfl⟩ := List.exists_cons_of_ne_nil is_digits.1
          exact exponentSign_of_isDigit (is_digits.2 first (.head _)) (digits ++ rest)
        · rfl
      have kept : (!isZero && !false) = false ∨ appendDigits 0 digits ≤ maxExponent := by
        refine is_kept.imp (fun zero => by rw [zero]; rfl) fun le => ?_
        rw [exponentSize_eq, maxExponent] at le
        rw [maxExponent]
        omega
      rw [List.append_assoc]
      exact exponentPart_digits is_mark sign_eq is_digits no_digit kept
  | negative is_mark is_digits =>
      have sign_eq {digits : List Char} :
          exponentSign (['-'] ++ (digits ++ rest)) = (true, digits ++ rest) := rfl
      exact exponentPart_digits is_mark sign_eq is_digits no_digit (.inl (Bool.and_false _))

theorem SpellsExponent.head_cases {isZero : Bool} {size : Int} {exponent : List Char}
    (spells : SpellsExponent isZero size exponent) (mem : char ∈ (exponent ++ rest).head?) :
    char ∈ rest.head? ∨ char = 'e' ∨ char = 'E' := by
  cases spells with
  | absent => exact .inl mem
  | positive is_mark _ _ _ => exact .inr (Option.some.inj mem ▸ is_mark)
  | negative is_mark _ => exact .inr (Option.some.inj mem ▸ is_mark)

theorem SpellsFraction.head_cases {fraction pointed : List Char}
    (spells : SpellsFraction fraction pointed) (mem : char ∈ (pointed ++ rest).head?) :
    char ∈ rest.head? ∨ char = '.' := by
  obtain ⟨-, rfl⟩ | ⟨-, rfl⟩ := spells
  · exact .inl mem
  · exact .inr (Option.some.inj mem).symm

/-- What stands behind a value: nothing, or a blank, a comma or a closing bracket. -/
def Follows (rest : List Char) : Prop :=
  ∀ char ∈ rest.head?, char ∈ [' ', '\n', '\t', '\r', ',', ']', '\x7d']

/-- What stands behind a value does not belong to a number. -/
theorem Follows.not_in_number (follows : Follows rest) (mem : char ∈ rest.head?) :
    char.isDigit = false ∧ char ≠ '.' ∧ char ≠ 'e' ∧ char ≠ 'E' := by
  have closes := follows char mem
  simp only [List.mem_cons, List.not_mem_nil, or_false] at closes
  obtain rfl | rfl | rfl | rfl | rfl | rfl | rfl := closes <;> decide

theorem readNumber_append (is_unsigned : IsUnsigned text) (follows : Follows rest)
    (sign : List Char) :
    readNumber sign (text ++ rest) = .ok (.number (.ofList (sign ++ text)), rest) := by
  obtain @⟨whole, fraction, pointed, exponent, size, is_whole, spells_fraction, spells_exponent,
    in_range⟩ := is_unsigned
  have exponent_head : ∀ char ∈ (exponent ++ rest).head?, char.isDigit = false ∧ char ≠ '.' := by
    intro char mem
    obtain mem | rfl | rfl := spells_exponent.head_cases mem
    · exact (follows.not_in_number mem).imp_right And.left
    · decide
    · decide
  have pointed_head : NoDigit (pointed ++ (exponent ++ rest)) := by
    intro char mem
    obtain mem | rfl := spells_fraction.head_cases mem
    · exact (exponent_head char mem).1
    · decide
  have whole_eq := wholePart_append is_whole pointed_head
  have fraction_eq := fractionPart_append spells_fraction
    (fun char mem => (exponent_head char mem).1) fun point => (exponent_head '.' point).2 rfl
  have exponent_eq := exponentPart_append spells_exponent
    (fun char mem => (follows.not_in_number mem).1)
    ⟨fun mark => (follows.not_in_number mark).2.2.1 rfl,
      fun mark => (follows.not_in_number mark).2.2.2 rfl⟩
  have taken_eq : (whole ++ (pointed ++ exponent) ++ rest).take
      ((whole ++ (pointed ++ exponent) ++ rest).length - rest.length) =
        whole ++ (pointed ++ exponent) := by
    rw [List.length_append, Nat.add_sub_cancel, List.take_left]
  have text_eq : whole ++ (pointed ++ exponent) ++ rest =
      whole ++ (pointed ++ (exponent ++ rest)) := by
    rw [List.append_assoc, List.append_assoc]
  rw [text_eq] at taken_eq ⊢
  simp only [readNumber, whole_eq, fraction_eq, exponent_eq, in_range, taken_eq, bind, Except.bind]
  rfl

end Json
end WorkItemQuery
