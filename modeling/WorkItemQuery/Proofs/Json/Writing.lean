import WorkItemQuery.Proofs.Json.Reading

/-!
# Writing values

What is written for a value is one of its texts, in the compact form and in the pretty one, if its
numbers are numbers that a double holds and it does not nest too deep.
-/

namespace WorkItemQuery
namespace Json

/-- All numbers of a value have a double, and its arrays and objects nest up to a depth. -/
def Fits : Nat → Json → Prop
  | _, .null | _, .bool _ | _, .string _ => True
  | _, .number text => IsNumber text.toList
  | 0, .array _ | 0, .object _ => False
  | depth + 1, .array items => ∀ item ∈ items, Fits depth item
  | depth + 1, .object members => ∀ member ∈ members, Fits depth member.2

/-! ## Strings -/

theorem spellsCode_low {code : Nat} (small : code < 0x10) :
    SpellsCode code (['0', '0', '0'] ++ Text.hexDigits code) := by
  have digits_eq : ∀ code < 0x10, (['0', '0', '0'] ++ Text.hexDigits code).map hexValue? =
      [some 0, some 0, some 0, some code] := by decide
  exact ⟨0, 0, 0, code, digits_eq code small, by omega⟩

theorem spellsCode_control {code : Nat} (large : 0x10 ≤ code) (small : code < 0x20) :
    SpellsCode code (['0', '0'] ++ Text.hexDigits code) := by
  have digits_eq : ∀ code < 0x20, 0x10 ≤ code → (['0', '0'] ++ Text.hexDigits code).map hexValue? =
      [some 0, some 0, some 1, some (code - 0x10)] := by decide
  exact ⟨0, 0, 1, code - 0x10, digits_eq code small large, by omega⟩

theorem spellsChar_escapeChar (char : Char) : SpellsChar char (escapeChar char) := by
  unfold escapeChar
  split
  · exact .letter (by decide)
  · exact .letter (by decide)
  · exact .letter (by decide)
  · exact .letter (by decide)
  · exact .letter (by decide)
  · exact .letter (by decide)
  · exact .letter (by decide)
  · rename_i not_quote not_backslash _ _ _ _ _
    split
    · rename_i small
      exact .code (spellsCode_low small)
    · rename_i large
      split
      · rename_i small
        exact .code (spellsCode_control (Nat.le_of_not_lt large) small)
      · rename_i not_control
        exact .plain not_quote not_backslash (Nat.le_of_not_lt not_control)

theorem spellsString_writeString (text : String) : SpellsString text (writeString text).toList := by
  refine ⟨text.toList.map escapeChar, ?_, ?_⟩
  · rw [List.forall₂_map_right_iff, List.forall₂_same]
    exact fun char _ => spellsChar_escapeChar char
  · rw [writeString, String.toList_ofList, List.flatMap]

/-! ## Parts -/

theorem isGap_empty : IsGap "".toList := isGap_nil

theorem isGap_space : IsGap " ".toList := by
  rintro _ (_ | ⟨_, ⟨⟩⟩)
  rfl

theorem isGap_lineBreak (level : Nat) : IsGap (lineBreak level).toList := by
  intro char mem
  rw [lineBreak, String.toList_ofList] at mem
  obtain _ | ⟨_, mem⟩ := mem
  · rfl
  · rw [List.eq_of_mem_replicate mem]
    rfl

section Parts

variable {α : Type} {SpellsPart : α → List Char → Prop} {write : α → String} {gap : String}
  {front back : List Char}

theorem separated_intercalate (is_gap : IsGap gap.toList) (front_gap : IsGap front)
    (back_gap : IsGap back) {part : α} {parts : List α}
    (spells : ∀ item ∈ part :: parts, SpellsPart item (write item).toList) :
    Separated SpellsPart (part :: parts)
      (front ++ ((("," ++ gap).intercalate ((part :: parts).map write)).toList ++ back)) := by
  induction parts generalizing part front with
  | nil =>
      rw [List.map_singleton, String.intercalate_singleton]
      exact .last front_gap (spells part (.head _)) back_gap
  | cons next parts ih =>
      have separated := ih is_gap fun item mem => spells item (.tail _ mem)
      have text_eq : (("," ++ gap).intercalate ((part :: next :: parts).map write)).toList ++ back =
          (write part).toList ++ ([] ++ ',' :: (gap.toList ++
            ((("," ++ gap).intercalate ((next :: parts).map write)).toList ++ back))) := by
        rw [List.map_cons, List.map_cons, String.intercalate_cons_cons]
        simp only [String.toList_append, List.append_assoc]
        rfl
      rw [text_eq]
      exact .more front_gap (spells part (.head _)) isGap_nil separated

/-- Parts without blanks between them. -/
theorem spellsParts_intercalate {parts : List α}
    (spells : ∀ part ∈ parts, SpellsPart part (write part).toList) :
    SpellsParts SpellsPart parts (",".intercalate (parts.map write)).toList := by
  cases parts with
  | nil => exact .inl ⟨rfl, isGap_nil⟩
  | cons part parts =>
      have separated := separated_intercalate isGap_empty isGap_nil isGap_nil spells
      rw [List.nil_append, List.append_nil] at separated
      exact .inr separated

/-- Parts on a line of their own each. -/
theorem exists_block {parts : List α}
    (spells : ∀ part ∈ parts, SpellsPart part (write part).toList) (level : Nat)
    (opening closing : String) :
    ∃ text, SpellsParts SpellsPart parts text ∧
      (block level opening (parts.map write) closing).toList =
        opening.toList ++ (text ++ closing.toList) := by
  cases parts with
  | nil => exact ⟨[], .inl ⟨rfl, isGap_nil⟩, String.toList_append⟩
  | cons part parts =>
      have separated := separated_intercalate (isGap_lineBreak (level + 1))
        (isGap_lineBreak (level + 1)) (isGap_lineBreak level) spells
      refine ⟨_, .inr separated, ?_⟩
      rw [List.map_cons, block, List.isEmpty_cons, if_neg Bool.false_ne_true]
      simp only [String.toList_append, List.append_assoc]

end Parts

theorem compactItems_eq_map (items : List Json) : compactItems items = items.map compact := by
  induction items with
  | nil => rw [compactItems, List.map_nil]
  | cons item items ih => rw [compactItems, ih, List.map_cons]

theorem compactMembers_eq_map (members : List (String × Json)) :
    compactMembers members =
      members.map fun member => writeString member.1 ++ ":" ++ member.2.compact := by
  induction members with
  | nil => rw [compactMembers, List.map_nil]
  | cons member members ih => rw [compactMembers, ih, List.map_cons]

theorem prettyItems_eq_map (level : Nat) (items : List Json) :
    prettyItems level items = items.map (prettyAt level) := by
  induction items with
  | nil => rw [prettyItems, List.map_nil]
  | cons item items ih => rw [prettyItems, ih, List.map_cons]

theorem prettyMembers_eq_map (level : Nat) (members : List (String × Json)) :
    prettyMembers level members =
      members.map fun member => writeString member.1 ++ ": " ++ member.2.prettyAt level := by
  induction members with
  | nil => rw [prettyMembers, List.map_nil]
  | cons member members ih => rw [prettyMembers, ih, List.map_cons]

/-! ## Values -/

variable {depth : Nat} {value : Json}

theorem Spells.of_scalar {text : List Char} (spells : SpellsScalar value text) (depth : Nat) :
    Spells depth value text := by
  cases depth with
  | zero => exact spells
  | succ depth => exact .inl spells

theorem Fits.scalar_or_nested (fits : Fits depth value) :
    (SpellsScalar value value.compact.toList ∧ ∀ level, value.prettyAt level = value.compact) ∨
      (∃ items, value = .array items) ∨ ∃ members, value = .object members := by
  cases value with
  | null => exact .inl ⟨.null, fun _ => rfl⟩
  | bool value =>
      cases value
      · exact .inl ⟨.false, fun _ => rfl⟩
      · exact .inl ⟨.true, fun _ => rfl⟩
  | number text =>
      have is_number : IsNumber text.toList := by cases depth <;> exact fits
      exact .inl ⟨.number is_number, fun _ => rfl⟩
  | string text => exact .inl ⟨.string (spellsString_writeString text), fun _ => rfl⟩
  | array items => exact .inr (.inl ⟨items, rfl⟩)
  | object members => exact .inr (.inr ⟨members, rfl⟩)

/-- A member is written with a gap behind its colon. -/
theorem spellsMember_write {SpellsValue : Json → List Char → Prop} {write : Json → String}
    {gap : String} (is_gap : IsGap gap.toList) {member : String × Json}
    (spells : SpellsValue member.2 (write member.2).toList) :
    SpellsMember SpellsValue member
      (writeString member.1 ++ (":" ++ gap) ++ write member.2).toList := by
  have text_eq : (writeString member.1 ++ (":" ++ gap) ++ write member.2).toList =
      (writeString member.1).toList ++ ([] ++ ':' :: (gap.toList ++ (write member.2).toList)) := by
    simp only [String.toList_append, List.append_assoc]
    rfl
  rw [text_eq]
  exact .intro (spellsString_writeString member.1) isGap_nil is_gap spells

theorem spells_compact {depth : Nat} {value : Json} (fits : Fits depth value) :
    Spells depth value value.compact.toList := by
  obtain ⟨spells, -⟩ | ⟨items, rfl⟩ | ⟨members, rfl⟩ := fits.scalar_or_nested
  · exact .of_scalar spells depth
  · cases depth with
    | zero => exact fits.elim
    | succ depth =>
        have parts := spellsParts_intercalate fun item mem => spells_compact (fits item mem)
        rw [compact, compactItems_eq_map, String.toList_append, String.toList_append]
        exact .inr (.array parts)
  · cases depth with
    | zero => exact fits.elim
    | succ depth =>
        have parts := spellsParts_intercalate fun member mem =>
          spellsMember_write isGap_empty (spells_compact (fits member mem))
        rw [compact, compactMembers_eq_map, String.toList_append, String.toList_append]
        exact .inr (.object parts)

theorem spells_prettyAt {depth : Nat} {value : Json} (fits : Fits depth value) (level : Nat) :
    Spells depth value (value.prettyAt level).toList := by
  obtain ⟨spells, pretty_eq⟩ | ⟨items, rfl⟩ | ⟨members, rfl⟩ := fits.scalar_or_nested
  · rw [pretty_eq]
    exact .of_scalar spells depth
  · cases depth with
    | zero => exact fits.elim
    | succ depth =>
        have spells_items : ∀ item ∈ items, Spells depth item (item.prettyAt (level + 1)).toList :=
          fun item mem => spells_prettyAt (fits item mem) (level + 1)
        obtain ⟨text, parts, text_eq⟩ := exists_block spells_items level "[" "]"
        rw [prettyAt, prettyItems_eq_map, text_eq]
        exact .inr (.array parts)
  · cases depth with
    | zero => exact fits.elim
    | succ depth =>
        have spells_members : ∀ member ∈ members, SpellsMember (Spells depth) member
            (writeString member.1 ++ ": " ++ member.2.prettyAt (level + 1)).toList :=
          fun member mem => spellsMember_write isGap_space
            (spells_prettyAt (fits member mem) (level + 1))
        obtain ⟨text, parts, text_eq⟩ := exists_block spells_members level "\x7b" "\x7d"
        rw [prettyAt, prettyMembers_eq_map, text_eq]
        exact .inr (.object parts)

theorem IsText.of_spells {text : String} (spells : Spells maxDepth value text.toList) :
    IsText value text := by
  refine ⟨[], text.toList, [], isGap_nil, spells, isGap_nil, ?_⟩
  rw [List.nil_append, List.append_nil]

/-- The compact form of a value is a text of it. -/
theorem isText_compact (fits : Fits maxDepth value) : IsText value value.compact :=
  .of_spells (spells_compact fits)

/-- The pretty form of a value is a text of it. -/
theorem isText_pretty (fits : Fits maxDepth value) : IsText value value.pretty :=
  .of_spells (spells_prettyAt fits 0)

end Json
end WorkItemQuery
