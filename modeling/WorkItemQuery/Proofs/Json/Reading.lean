import WorkItemQuery.Proofs.Json.Scalars

/-!
# Reading values

Each text of a value is read as that value.  The parts of an array and those of an object are read
by the same kind of loop, so what the loop makes of parts with commas between them is shown once.
-/

namespace WorkItemQuery
namespace Json

variable {char : Char} {gap text rest : List Char}

/-! ## Blanks -/

theorem isGap_nil : IsGap [] := fun _ mem => nomatch mem

theorem skipBlanks_gap (is_gap : IsGap gap) (text : List Char) :
    skipBlanks (gap ++ text) = skipBlanks text :=
  List.dropWhile_append_of_pos is_gap

theorem skipBlanks_cons (not_blank : isBlank char = false) (text : List Char) :
    skipBlanks (char :: text) = char :: text :=
  List.dropWhile_cons_of_neg (Bool.not_eq_true _ ▸ not_blank)

theorem Follows.behind_gap (follows : Follows rest) (is_gap : IsGap gap) :
    Follows (gap ++ rest) := by
  cases gap with
  | nil => exact follows
  | cons char gap =>
      rintro _ ⟨⟩
      have blank := is_gap char (.head _)
      simp only [isBlank, Bool.or_eq_true, beq_iff_eq] at blank
      obtain ((rfl | rfl) | rfl) | rfl := blank <;> decide

/-! ## Parts -/

/-- How the parts of an array or an object are read in steps, up to a closing bracket. -/
structure ReadsParts {α : Type} (SpellsPart : α → List Char → Prop) (bracket : Char)
    (read : Nat → Bool → List Char → Except Failure (List α × List Char)) : Prop where
  /-- The bracket may follow a part. -/
  follows : ∀ rest, Follows (bracket :: rest)
  /-- The bracket ends the parts. -/
  close : ∀ {gap : List Char}, IsGap gap → ∀ (steps : Nat) (isFirst : Bool) (rest : List Char),
    read (steps + 1) isFirst (gap ++ bracket :: rest) = .ok ([], rest)
  /-- One part takes one step. -/
  first : ∀ {part : α} {front text rest : List Char}, IsGap front → SpellsPart part text →
    Follows rest → ∀ steps : Nat,
      read (steps + 1) true (front ++ (text ++ rest)) =
        Prod.map (part :: ·) id <$> read steps false rest
  /-- A part behind a comma is read as the first one is. -/
  next : ∀ {part : α} {back front text : List Char}, IsGap back → IsGap front →
    SpellsPart part text → ∀ (steps : Nat) (rest : List Char),
      read (steps + 1) false (back ++ ',' :: (front ++ (text ++ rest))) =
        read (steps + 1) true (front ++ (text ++ rest))

section Parts

variable {α : Type} {SpellsPart : α → List Char → Prop} {parts : List α} {bracket : Char}
  {read : Nat → Bool → List Char → Except Failure (List α × List Char)}

theorem Separated.exists_first (separated : Separated SpellsPart parts text) :
    ∃ part front first tail, IsGap front ∧ SpellsPart part first ∧
      text = front ++ (first ++ tail) := by
  cases separated with
  | last front_gap spells _ => exact ⟨_, _, _, _, front_gap, spells, rfl⟩
  | more front_gap spells _ _ => exact ⟨_, _, _, _, front_gap, spells, rfl⟩

theorem Separated.length_le (separated : Separated SpellsPart parts text) :
    parts.length ≤ text.length + 1 := by
  induction separated with
  | last _ _ _ => exact Nat.le_add_left 1 _
  | more _ _ _ _ ih =>
      simp only [List.length_append, List.length_cons]
      omega

theorem ReadsParts.separated (reads : ReadsParts SpellsPart bracket read)
    (separated : Separated SpellsPart parts text) (rest : List Char) {steps : Nat}
    (enough : parts.length < steps) :
    read steps true (text ++ bracket :: rest) = .ok (parts, rest) := by
  induction separated generalizing steps with
  | @last part front text back front_gap spells back_gap =>
      obtain ⟨steps, rfl⟩ := Nat.exists_eq_add_of_le' enough
      have follows := (reads.follows rest).behind_gap back_gap
      rw [List.append_assoc, List.append_assoc]
      exact (reads.first front_gap spells follows (steps + 1)).trans
        (congrArg (_ <$> ·) (reads.close back_gap steps false rest))
  | @more part parts front text back tail front_gap spells back_gap separated ih =>
      obtain ⟨steps, rfl⟩ := Nat.exists_eq_add_one.mpr (Nat.zero_lt_of_lt enough)
      have more := Nat.lt_of_succ_lt_succ enough
      have follows : Follows (back ++ ',' :: (tail ++ bracket :: rest)) :=
        Follows.behind_gap (by rintro _ ⟨⟩; decide) back_gap
      have read_eq : read steps false (back ++ ',' :: (tail ++ bracket :: rest)) =
          read steps true (tail ++ bracket :: rest) := by
        obtain ⟨steps, rfl⟩ := Nat.exists_eq_add_one.mpr (Nat.zero_lt_of_lt more)
        obtain ⟨part, front, first, tail, front_gap, spells, rfl⟩ := separated.exists_first
        rw [List.append_assoc, List.append_assoc]
        exact reads.next back_gap front_gap spells steps _
      rw [List.append_assoc, List.append_assoc, List.append_assoc, List.cons_append,
        reads.first front_gap spells follows, read_eq, ih more]
      rfl

theorem ReadsParts.spelled (reads : ReadsParts SpellsPart bracket read)
    (spells : SpellsParts SpellsPart parts text) (rest : List Char) :
    read ((text ++ bracket :: rest).length + 1) true (text ++ bracket :: rest) =
      .ok (parts, rest) := by
  obtain ⟨rfl, is_gap⟩ | separated := spells
  · exact reads.close is_gap _ true rest
  · refine reads.separated separated rest ?_
    have length_le := separated.length_le
    rw [List.length_append, List.length_cons]
    omega

end Parts

/-! ## Values -/

/-- A reader takes each text of a value for that value, behind blanks and before what may follow. -/
structure Takes (read : Reader) (SpellsValue : Json → List Char → Prop) : Prop where
  /-- The text of a value begins with neither a blank nor a closing bracket. -/
  head : ∀ {value : Json} {text : List Char}, SpellsValue value text →
    ∃ char rest, text = char :: rest ∧ isBlank char = false ∧ char ≠ ']'
  /-- The value is read. -/
  read : ∀ {value : Json} {gap text rest : List Char}, IsGap gap → SpellsValue value text →
    Follows rest → read (gap ++ (text ++ rest)) = .ok (value, rest)

variable {read : Reader} {SpellsValue : Json → List Char → Prop}

/-- The first item is read where something else than the closing bracket stands. -/
theorem itemsWithin_first (text_eq : skipBlanks text = char :: rest) (not_bracket : char ≠ ']')
    (steps : Nat) :
    itemsWithin read (steps + 1) true text = (do
      let (value, rest) ← read (char :: rest)
      let (more, rest) ← itemsWithin read steps false rest
      return (value :: more, rest)) := by
  simp only [itemsWithin, text_eq, if_true]

/-- Behind a comma, an item is read in the same way. -/
theorem itemsWithin_next {behind : List Char} (text_eq : skipBlanks text = ',' :: behind)
    (behind_eq : skipBlanks behind = char :: rest) (not_bracket : char ≠ ']') (steps : Nat) :
    itemsWithin read (steps + 1) false text = (do
      let (value, rest) ← read (char :: rest)
      let (more, rest) ← itemsWithin read steps false rest
      return (value :: more, rest)) := by
  have comma_ne : ',' ≠ ']' := by decide
  simp only [itemsWithin, text_eq, Bool.false_eq_true, if_false, if_true]
  split
  · rename_i heq; cases heq.symm.trans behind_eq
  · rename_i heq; exact absurd (List.cons.inj (heq.symm.trans behind_eq)).1.symm not_bracket
  · rw [behind_eq]

theorem readsParts_items (takes : Takes read SpellsValue) :
    ReadsParts SpellsValue ']' (itemsWithin read) where
  follows := by rintro _ _ ⟨⟩; decide
  close := by
    intro gap is_gap steps isFirst rest
    simp only [itemsWithin, skipBlanks_gap is_gap]
    rfl
  first := by
    intro part front text rest front_gap spells follows steps
    obtain ⟨char, tail, rfl, not_blank, not_bracket⟩ := takes.head spells
    have text_eq : skipBlanks (front ++ (char :: tail ++ rest)) = char :: (tail ++ rest) :=
      (skipBlanks_gap front_gap _).trans (skipBlanks_cons not_blank _)
    have read_eq : read (char :: (tail ++ rest)) = .ok (part, rest) :=
      takes.read isGap_nil spells follows
    rw [itemsWithin_first text_eq not_bracket, read_eq]
    rfl
  next := by
    intro part back front text back_gap front_gap spells steps rest
    obtain ⟨char, tail, rfl, not_blank, not_bracket⟩ := takes.head spells
    have text_eq : skipBlanks (front ++ (char :: tail ++ rest)) = char :: (tail ++ rest) :=
      (skipBlanks_gap front_gap _).trans (skipBlanks_cons not_blank _)
    rw [itemsWithin_first text_eq not_bracket,
      itemsWithin_next (skipBlanks_gap back_gap _) text_eq not_bracket]

theorem readMember_append (takes : Takes read SpellsValue) {member : String × Json}
    (spells : SpellsMember SpellsValue member text) (follows : Follows rest) :
    ∃ body, text = '"' :: body ∧ readMember read (body ++ rest) = .ok (member, rest) := by
  obtain @⟨name, value, _, back, front, text, spells_name, back_gap, front_gap, spells_value⟩ :=
    spells
  obtain ⟨body, rfl, name_eq⟩ := spells_name.exists_body
  refine ⟨body ++ (back ++ ':' :: (front ++ text)), rfl, ?_⟩
  have colon_eq : skipBlanks (back ++ ':' :: (front ++ (text ++ rest))) =
      ':' :: (front ++ (text ++ rest)) := skipBlanks_gap back_gap _
  simp only [readMember, List.append_assoc, List.cons_append, name_eq, bind, Except.bind, colon_eq,
    takes.read front_gap spells_value follows]
  rfl

/-- The first member is read where a quote stands. -/
theorem membersWithin_first (text_eq : skipBlanks text = '"' :: rest) (steps : Nat) :
    membersWithin read (steps + 1) true text = (do
      let (first, rest) ← readMember read rest
      let (more, rest) ← membersWithin read steps false rest
      return (first :: more, rest)) := by
  rw [membersWithin, text_eq]
  rfl

/-- Behind a comma, a member is read in the same way. -/
theorem membersWithin_next {behind : List Char} (text_eq : skipBlanks text = ',' :: behind)
    (behind_eq : skipBlanks behind = '"' :: rest) (steps : Nat) :
    membersWithin read (steps + 1) false text = (do
      let (first, rest) ← readMember read rest
      let (more, rest) ← membersWithin read steps false rest
      return (first :: more, rest)) := by
  have comma_ne : ',' ≠ '\x7d' := by decide
  simp only [membersWithin, text_eq, behind_eq, Bool.false_eq_true, if_false, if_true]

theorem readsParts_members (takes : Takes read SpellsValue) :
    ReadsParts (SpellsMember SpellsValue) '\x7d' (membersWithin read) where
  follows := by rintro _ _ ⟨⟩; decide
  close := by
    intro gap is_gap steps isFirst rest
    simp only [membersWithin, skipBlanks_gap is_gap]
    rfl
  first := by
    intro part front text rest front_gap spells follows steps
    obtain ⟨body, rfl, member_eq⟩ := readMember_append takes spells follows
    have text_eq : skipBlanks (front ++ ('"' :: body ++ rest)) = '"' :: (body ++ rest) :=
      skipBlanks_gap front_gap _
    rw [membersWithin_first text_eq, member_eq]
    rfl
  next := by
    intro part back front text back_gap front_gap spells steps rest
    obtain ⟨body, rfl, -⟩ := readMember_append takes spells (nofun : Follows [])
    have text_eq : skipBlanks (front ++ ('"' :: body ++ rest)) = '"' :: (body ++ rest) :=
      skipBlanks_gap front_gap _
    rw [membersWithin_first text_eq, membersWithin_next (skipBlanks_gap back_gap _) text_eq]

theorem readValue_gap (is_gap : IsGap gap) (depth : Nat) (text : List Char) :
    readValue depth (gap ++ text) = readValue depth text := by
  rw [readValue.eq_def, readValue.eq_def]
  simp only [skipBlanks_gap is_gap]

theorem not_blank_of_isDigit (is_digit : char.isDigit = true) : isBlank char = false := by
  refine Bool.eq_false_iff.mpr fun blank => ?_
  simp only [isBlank, Bool.or_eq_true, beq_iff_eq] at blank
  obtain ((rfl | rfl) | rfl) | rfl := blank <;> exact Bool.false_ne_true is_digit

theorem readValue_digit (is_digit : char.isDigit = true) (depth : Nat) (text : List Char) :
    readValue depth (char :: text) = readNumber [] (char :: text) := by
  have ne_of_not_digit {other : Char} (not_digit : other.isDigit = false) : char ≠ other :=
    fun eq => Bool.false_ne_true (not_digit.symm.trans (eq ▸ is_digit))
  have not_n : char ≠ 'n' := ne_of_not_digit rfl
  have not_t : char ≠ 't' := ne_of_not_digit rfl
  have not_f : char ≠ 'f' := ne_of_not_digit rfl
  have not_minus : char ≠ '-' := ne_of_not_digit rfl
  have not_quote : char ≠ '"' := ne_of_not_digit rfl
  have not_bracket : char ≠ '[' := ne_of_not_digit rfl
  have not_brace : char ≠ '\x7b' := ne_of_not_digit rfl
  rw [readValue.eq_def]
  simp only [skipBlanks_cons (not_blank_of_isDigit is_digit), if_pos is_digit]

theorem IsUnsigned.exists_digit (is_unsigned : IsUnsigned text) :
    ∃ char rest, text = char :: rest ∧ char.isDigit = true := by
  obtain ⟨is_whole, -, -, -⟩ := is_unsigned
  obtain rfl | ⟨⟨not_empty, all_digits⟩, -⟩ := is_whole
  · exact ⟨_, _, rfl, rfl⟩
  · obtain ⟨first, whole, rfl⟩ := List.exists_cons_of_ne_nil not_empty
    exact ⟨_, _, rfl, all_digits first (.head _)⟩

theorem readValue_number (is_number : IsNumber text) (follows : Follows rest) (depth : Nat) :
    readValue depth (text ++ rest) = .ok (.number (.ofList text), rest) := by
  obtain is_unsigned | ⟨unsigned, is_unsigned, rfl⟩ := is_number
  · obtain ⟨char, tail, rfl, is_digit⟩ := is_unsigned.exists_digit
    exact (readValue_digit is_digit depth _).trans (readNumber_append is_unsigned follows [])
  · rw [readValue.eq_def]
    exact readNumber_append is_unsigned follows ['-']

theorem IsNumber.exists_head (is_number : IsNumber text) :
    ∃ char rest, text = char :: rest ∧ isBlank char = false ∧ char ≠ ']' := by
  obtain is_unsigned | ⟨unsigned, -, rfl⟩ := is_number
  · obtain ⟨char, rest, rfl, is_digit⟩ := is_unsigned.exists_digit
    refine ⟨char, rest, rfl, not_blank_of_isDigit is_digit, ?_⟩
    rintro rfl
    exact Bool.false_ne_true is_digit
  · exact ⟨_, _, rfl, by decide, by decide⟩

theorem takes_scalar (depth : Nat) : Takes (readValue depth) SpellsScalar where
  head := by
    intro value text spells
    cases spells with
    | null => exact ⟨_, _, rfl, by decide, by decide⟩
    | true => exact ⟨_, _, rfl, by decide, by decide⟩
    | false => exact ⟨_, _, rfl, by decide, by decide⟩
    | number is_number => exact is_number.exists_head
    | string spells =>
        obtain ⟨_, rfl, _⟩ := spells.exists_body
        exact ⟨_, _, rfl, by decide, by decide⟩
  read := by
    intro value gap text rest is_gap spells follows
    rw [readValue_gap is_gap]
    cases spells with
    | null => rw [readValue.eq_def]; rfl
    | true => rw [readValue.eq_def]; rfl
    | false => rw [readValue.eq_def]; rfl
    | number is_number => rw [readValue_number is_number follows, String.ofList_toList]
    | string spells =>
        obtain ⟨body, rfl, string_eq⟩ := spells.exists_body
        have skipped_eq : skipBlanks ('"' :: (body ++ rest)) = '"' :: (body ++ rest) := rfl
        rw [readValue.eq_def]
        simp only [List.cons_append, skipped_eq, string_eq, bind, Except.bind]
        rfl

theorem takes_nested {depth : Nat} (takes : Takes (readValue depth) SpellsValue) :
    Takes (readValue (depth + 1)) (SpellsNested SpellsValue) where
  head := by
    intro value text spells
    cases spells with
    | array _ => exact ⟨_, _, rfl, by decide, by decide⟩
    | object _ => exact ⟨_, _, rfl, by decide, by decide⟩
  read := by
    intro value gap text rest is_gap spells _
    rw [readValue_gap is_gap, readValue.eq_def]
    cases spells with
    | @array items text spells =>
        have items_eq := (readsParts_items takes).spelled spells rest
        have text_eq : text ++ [']'] ++ rest = text ++ ']' :: rest := (List.append_cons ..).symm
        have skipped_eq : skipBlanks ('[' :: (text ++ ']' :: rest)) =
            '[' :: (text ++ ']' :: rest) := rfl
        rw [List.cons_append, List.cons_append, text_eq]
        simp only [skipped_eq, items_eq, bind, Except.bind]
        rfl
    | @object members text spells =>
        have members_eq := (readsParts_members takes).spelled spells rest
        have text_eq : text ++ ['\x7d'] ++ rest = text ++ '\x7d' :: rest :=
          (List.append_cons ..).symm
        have skipped_eq : skipBlanks ('\x7b' :: (text ++ '\x7d' :: rest)) =
            '\x7b' :: (text ++ '\x7d' :: rest) := rfl
        rw [List.cons_append, List.cons_append, text_eq]
        simp only [skipped_eq, members_eq, bind, Except.bind]
        rfl

/-- Each text of a value is read, as deep as the reader goes. -/
theorem takes_spells (depth : Nat) : Takes (readValue depth) (Spells depth) := by
  induction depth with
  | zero => exact takes_scalar 0
  | succ depth ih =>
      have scalar := takes_scalar (depth + 1)
      have nested := takes_nested ih
      exact ⟨fun spells => spells.elim scalar.head nested.head,
        fun is_gap spells follows => spells.elim (scalar.read is_gap · follows)
          (nested.read is_gap · follows)⟩

/-- A text of a value is read as that value, and nothing is left of it. -/
theorem readFirst_of_isText {value : Json} {text : String} (is_text : IsText value text) :
    ∃ rest, readFirst text.toList = .ok (value, rest) ∧ expectEnd rest = .ok () := by
  obtain ⟨front, body, back, front_gap, spells, back_gap, text_eq⟩ := is_text
  have follows : Follows back := by
    have behind := Follows.behind_gap (nofun : Follows []) back_gap
    rwa [List.append_nil] at behind
  refine ⟨back, ?_, ?_⟩
  · rw [text_eq]
    exact (takes_spells maxDepth).read front_gap spells follows
  · have skipped_eq : skipBlanks (back ++ []) = [] := skipBlanks_gap back_gap []
    rw [List.append_nil] at skipped_eq
    rw [expectEnd, skipped_eq]

end Json
end WorkItemQuery
