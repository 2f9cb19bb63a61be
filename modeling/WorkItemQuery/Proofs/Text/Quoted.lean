import Mathlib.Logic.Function.Basic
import WorkItemQuery.Text.Quoted

/-!
# Quoted texts are told apart

What a character is written as inside quotes tells which character it is and where its spelling
ends.  So no two texts are quoted alike, and no line ends inside a quoted text.
-/

namespace WorkItemQuery
namespace Text

/-- A text is cut at its first mark in one way only. -/
theorem append_cons_inj {mark : Char} {front front' back back' : List Char} (notMem : mark ∉ front)
    (notMem' : mark ∉ front') (same : front ++ mark :: back = front' ++ mark :: back') :
    front = front' ∧ back = back' := by
  induction front generalizing front' with
  | nil =>
      cases front' with
      | nil => exact ⟨rfl, (List.cons.inj same).2⟩
      | cons char front' =>
          obtain rfl := (List.cons.inj same).1
          exact absurd (.head _) notMem'
  | cons char front ih =>
      cases front' with
      | nil =>
          obtain rfl := (List.cons.inj same).1
          exact absurd (.head _) notMem
      | cons char' front' =>
          obtain ⟨rfl, rest_eq⟩ := List.cons.inj same
          obtain ⟨rfl, back_eq⟩ := ih (mt (.tail _) notMem) (mt (.tail _) notMem') rest_eq
          exact ⟨rfl, back_eq⟩

/-! ## Hexadecimal digits -/

theorem hexDigits_of_lt {value : Nat} (small : value < 16) :
    hexDigits value = [Nat.digitChar value] := Nat.toDigits_of_lt_base small

theorem hexDigits_of_le {value : Nat} (large : 16 ≤ value) :
    hexDigits value = hexDigits (value / 16) ++ [Nat.digitChar (value % 16)] :=
  Nat.toDigits_of_base_le (by decide) large

theorem hexDigits_ne_nil (value : Nat) : hexDigits value ≠ [] := Nat.toDigits_ne_nil

theorem exists_digit_of_mem_hexDigits (value : Nat) :
    ∀ char ∈ hexDigits value, ∃ digit < 16, char = Nat.digitChar digit := by
  induction value using Nat.strongRecOn with
  | ind value ih =>
      obtain small | large := Nat.lt_or_ge value 16
      · rw [hexDigits_of_lt small]
        exact List.forall_mem_singleton.2 ⟨value, small, rfl⟩
      · rw [hexDigits_of_le large]
        refine List.forall_mem_append.2 ⟨ih _ (by omega), List.forall_mem_singleton.2 ?_⟩
        exact ⟨value % 16, Nat.mod_lt _ (by decide), rfl⟩

theorem digitChar_inj : ∀ digit < 16, ∀ other < 16,
    Nat.digitChar digit = Nat.digitChar other → digit = other := by
  decide

/-- Numbers with the same hexadecimal digits are the same. -/
theorem hexDigits_injective : Function.Injective hexDigits := by
  intro value
  induction value using Nat.strongRecOn with
  | ind value ih =>
      intro other same
      obtain small | large := Nat.lt_or_ge value 16 <;>
        obtain other_small | other_large := Nat.lt_or_ge other 16
      · rw [hexDigits_of_lt small, hexDigits_of_lt other_small] at same
        exact digitChar_inj value small other other_small (List.cons.inj same).1
      · rw [hexDigits_of_lt small, hexDigits_of_le other_large] at same
        exact absurd (List.append_eq_singleton_iff.1 same.symm) (by simp [hexDigits_ne_nil])
      · rw [hexDigits_of_le large, hexDigits_of_lt other_small] at same
        exact absurd (List.append_eq_singleton_iff.1 same) (by simp [hexDigits_ne_nil])
      · rw [hexDigits_of_le large, hexDigits_of_le other_large] at same
        obtain ⟨front_eq, last_eq⟩ := List.append_inj' same rfl
        have quotient_eq := ih (value / 16) (by omega) front_eq
        have digit_eq := digitChar_inj (value % 16) (Nat.mod_lt _ (by decide)) (other % 16)
          (Nat.mod_lt _ (by decide)) (List.cons.inj last_eq).1
        omega

/-! ## Characters inside quotes -/

/-- The characters that are written as a backslash and a letter, with their letters. -/
def escapes : List (Char × Char) :=
  [('"', '"'), ('\\', '\\'), ('\t', 't'), ('\r', 'r'), ('\n', 'n'), ('\x00', '0')]

/-- The ways to write a character inside quotes. -/
inductive Quotes (char : Char) : List Char → Prop where
  | plain : char ∉ escapes.map Prod.fst → Quotes char [char]
  | escaped (letter : Char) : (char, letter) ∈ escapes → Quotes char ['\\', letter]
  | code : Quotes char ('\\' :: 'u' :: '\x7b' :: (hexDigits char.toNat ++ ['\x7d']))

theorem quotes_quoteChar (char : Char) : Quotes char (quoteChar char) := by
  by_cases mem : char ∈ escapes.map Prod.fst
  · have listed : ∀ escape ∈ escapes, quoteChar escape.1 = ['\\', escape.2] := by decide
    obtain ⟨escape, escape_mem, rfl⟩ := List.mem_map.1 mem
    rw [listed escape escape_mem]
    exact .escaped escape.2 escape_mem
  · rw [quoteChar]
    · split
      · exact .plain mem
      · exact .code
    all_goals
      rintro rfl
      exact mem (by decide)

variable {char char' : Char} {written written' rest rest' : List Char}

theorem Quotes.ne_nil (quotes : Quotes char written) : written ≠ [] := by
  cases quotes <;> nofun

theorem notMem_hexDigits (char : Char) (no_digit : ∀ digit < 16, char ≠ Nat.digitChar digit)
    (value : Nat) : char ∉ hexDigits value := by
  intro mem
  obtain ⟨digit, small, char_eq⟩ := exists_digit_of_mem_hexDigits value char mem
  exact no_digit digit small char_eq

theorem Quotes.newline_notMem (quotes : Quotes char written) : '\n' ∉ written := by
  cases quotes with
  | plain not_escaped =>
      rw [List.mem_singleton]
      rintro rfl
      exact not_escaped (by decide)
  | escaped letter mem =>
      have letters : ∀ escape ∈ escapes, '\n' ∉ ['\\', escape.2] := by decide
      exact letters _ mem
  | code =>
      have no_digit := notMem_hexDigits '\n' (by decide) char.toNat
      simp [no_digit]

/-- How a character is written tells the character, and where it ends. -/
theorem Quotes.append_inj (quotes : Quotes char written) (quotes' : Quotes char' written')
    (same : written ++ rest = written' ++ rest') : char = char' ∧ rest = rest' := by
  have letters : ∀ escape ∈ escapes, escape.2 ≠ 'u' := by decide
  have same_escape : ∀ escape ∈ escapes, ∀ other ∈ escapes, escape.2 = other.2 →
      escape.1 = other.1 := by
    decide
  cases quotes with
  | plain not_escaped =>
      cases quotes' with
      | plain => exact List.cons.inj same
      | escaped | code =>
          obtain rfl := (List.cons.inj same).1
          exact absurd (by decide) not_escaped
  | escaped letter mem =>
      cases quotes' with
      | plain not_escaped =>
          obtain rfl := (List.cons.inj same).1
          exact absurd (by decide) not_escaped
      | escaped letter' mem' =>
          obtain ⟨letter_eq, rest_eq⟩ := List.cons.inj (List.cons.inj same).2
          exact ⟨same_escape _ mem _ mem' letter_eq, rest_eq⟩
      | code => exact absurd (List.cons.inj (List.cons.inj same).2).1 (letters _ mem)
  | code =>
      cases quotes' with
      | plain not_escaped =>
          obtain rfl := (List.cons.inj same).1
          exact absurd (by decide) not_escaped
      | escaped letter mem =>
          exact absurd (List.cons.inj (List.cons.inj same).2).1.symm (letters _ mem)
      | code =>
          have no_brace := notMem_hexDigits '\x7d' (by decide)
          simp only [List.cons_append, List.cons.injEq, true_and, List.append_assoc,
            List.nil_append] at same
          obtain ⟨digits_eq, rest_eq⟩ := append_cons_inj (no_brace _) (no_brace _) same
          exact ⟨Char.toNat_inj.1 (hexDigits_injective digits_eq), rest_eq⟩

/-! ## Quoted texts -/

theorem flatMap_quoteChar_injective :
    Function.Injective fun text : List Char => text.flatMap quoteChar := by
  intro text
  induction text with
  | nil =>
      intro other same
      cases other with
      | nil => rfl
      | cons char other =>
          exact absurd (List.append_eq_nil_iff.1 same.symm).1 (quotes_quoteChar char).ne_nil
  | cons char text ih =>
      intro other same
      cases other with
      | nil => exact absurd (List.append_eq_nil_iff.1 same).1 (quotes_quoteChar char).ne_nil
      | cons char' other =>
          obtain ⟨rfl, rest_eq⟩ :=
            (quotes_quoteChar char).append_inj (quotes_quoteChar char') same
          rw [ih rest_eq]

theorem toList_quoted (text : String) :
    (quoted text).toList = '"' :: (text.toList.flatMap quoteChar ++ ['"']) := by
  rw [quoted, String.toList_ofList, List.cons_append]

/-- Texts that are quoted alike are the same. -/
theorem quoted_injective : Function.Injective quoted := by
  intro text other same
  have lists_eq := congrArg String.toList same
  rw [toList_quoted, toList_quoted] at lists_eq
  have inside_eq := (List.append_inj' (List.cons.inj lists_eq).2 rfl).1
  exact String.toList_inj.1 (flatMap_quoteChar_injective inside_eq)

/-- No line ends inside a quoted text. -/
theorem newline_notMem_quoted (text : String) : '\n' ∉ (quoted text).toList := by
  rw [toList_quoted, List.mem_cons, List.mem_append, List.mem_flatMap, not_or, not_or]
  refine ⟨by decide, ?_, by decide⟩
  rintro ⟨char, -, mem⟩
  exact (quotes_quoteChar char).newline_notMem mem

end Text
end WorkItemQuery
