import Mathlib.Data.List.Induction
import WorkItemQuery.Field.Catalog

/-!
# The last field of a name

Both names of every field of a catalog go into one index, and a later name takes the place of an
earlier one.  So a name is looked up as if the fields were searched for it from the last to the
first.
-/

namespace WorkItemQuery

/-- One of the names of the field is this one, without regard to case. -/
def FieldRecord.Answers (record : FieldRecord) (name : String) : Prop :=
  Text.lowerCase record.referenceName = Text.lowerCase name ∨
    Text.lowerCase record.name = Text.lowerCase name

instance (record : FieldRecord) (name : String) : Decidable (record.Answers name) :=
  inferInstanceAs (Decidable (_ ∨ _))

namespace FieldCatalog

variable {records : List FieldRecord} {name other key : String} {index : List (String × Nat)}
  {entry : String × Nat}

/-! ## The index -/

theorem lookup_replace_self (has_entry : index.any (·.1 == entry.1) = true) :
    (index.map fun old => if old.1 == entry.1 then entry else old).lookup entry.1 =
      some entry.2 := by
  induction index with
  | nil => cases has_entry
  | cons first index ih =>
      rw [List.map_cons]
      by_cases is_entry : first.1 = entry.1
      · rw [if_pos (beq_iff_eq.2 is_entry), List.lookup_cons_self]
      · have not_entry := beq_eq_false_iff_ne.2 is_entry
        rw [List.any_cons, not_entry, Bool.false_or] at has_entry
        rw [not_entry, if_neg Bool.false_ne_true, List.lookup_cons,
          beq_eq_false_iff_ne.2 (Ne.symm is_entry)]
        exact ih has_entry

theorem lookup_replace_of_ne (different : key ≠ entry.1) :
    (index.map fun old => if old.1 == entry.1 then entry else old).lookup key =
      index.lookup key := by
  induction index with
  | nil => rfl
  | cons first index ih =>
      rw [List.map_cons, List.lookup_cons, ih]
      by_cases is_entry : first.1 = entry.1
      · rw [if_pos (beq_iff_eq.2 is_entry), List.lookup_cons, is_entry,
          beq_eq_false_iff_ne.2 different]
      · rw [if_neg (mt beq_iff_eq.1 is_entry), List.lookup_cons]

theorem lookup_add_self (no_entry : ¬ index.any (·.1 == entry.1) = true) :
    (index ++ [entry]).lookup entry.1 = some entry.2 := by
  have not_found : index.lookup entry.1 = none := by
    rw [List.lookup_eq_none_iff]
    intro old mem
    rw [bne_iff_ne]
    exact fun same => no_entry (List.any_eq_true.2 ⟨old, mem, beq_iff_eq.2 same.symm⟩)
  rw [List.lookup_append, not_found, Option.none_or, List.lookup_cons_self]

theorem lookup_add_of_ne (different : key ≠ entry.1) :
    (index ++ [entry]).lookup key = index.lookup key := by
  rw [List.lookup_append, List.lookup_cons, beq_eq_false_iff_ne.2 different, List.lookup_nil,
    Option.or_none]

/-- A name that is put into an index is found at its new place, the others where they were. -/
theorem lookup_insert (index : List (String × Nat)) (entry : String × Nat) (key : String) :
    (insert index entry).lookup key = if key = entry.1 then some entry.2 else index.lookup key := by
  by_cases is_entry : key = entry.1
  · rw [if_pos is_entry, is_entry, insert]
    split
    · exact lookup_replace_self ‹_›
    · exact lookup_add_self ‹_›
  · rw [if_neg is_entry, insert]
    split
    · exact lookup_replace_of_ne is_entry
    · exact lookup_add_of_ne is_entry

theorem entriesFrom_append (place : Nat) (records more : List FieldRecord) :
    entriesFrom place (records ++ more) =
      entriesFrom place records ++ entriesFrom (place + records.length) more := by
  induction records generalizing place with
  | nil => rfl
  | cons record records ih =>
      rw [List.cons_append, entriesFrom, entriesFrom, ih, List.append_assoc, List.length_cons,
        Nat.add_assoc, Nat.add_comm 1]

/-- The names of the last field are found at its place, the others as without it. -/
theorem lookup_ofList_concat (records : List FieldRecord) (last : FieldRecord) (name : String) :
    (ofList (records ++ [last])).index.lookup (Text.lowerCase name) =
      if last.Answers name then some records.length
      else (ofList records).index.lookup (Text.lowerCase name) := by
  have entries_eq : entriesFrom 0 (records ++ [last]) = entriesFrom 0 records ++
      [(Text.lowerCase last.referenceName, records.length),
        (Text.lowerCase last.name, records.length)] := by
    rw [entriesFrom_append, Nat.zero_add]
    rfl
  rw [ofList, entries_eq, List.foldl_append, List.foldl_cons, List.foldl_cons, List.foldl_nil,
    lookup_insert, lookup_insert]
  by_cases is_name : Text.lowerCase name = Text.lowerCase last.name
  · rw [if_pos is_name, if_pos (.inr is_name.symm)]
  · rw [if_neg is_name]
    by_cases is_reference : Text.lowerCase name = Text.lowerCase last.referenceName
    · rw [if_pos is_reference, if_pos (.inl is_reference.symm)]
    · have no_answer : ¬ last.Answers name := not_or.2 ⟨Ne.symm is_reference, Ne.symm is_name⟩
      rw [if_neg is_reference, if_neg no_answer]
      rfl

/-- Every place in the index is one of the list. -/
theorem lt_length_of_lookup : ∀ {place : Nat},
    (ofList records).index.lookup (Text.lowerCase name) = some place → place < records.length := by
  induction records using List.reverseRecOn with
  | nil => nofun
  | append_singleton records last ih =>
      intro place found
      rw [lookup_ofList_concat] at found
      rw [List.length_append, List.length_singleton]
      split at found
      · obtain rfl := Option.some.inj found
        exact Nat.lt_succ_self _
      · exact Nat.lt_succ_of_lt (ih found)

/-! ## What is found -/

theorem get?_ofList_concat (records : List FieldRecord) (last : FieldRecord) (name : String) :
    (ofList (records ++ [last])).get? name =
      if last.Answers name then some last else (ofList records).get? name := by
  rw [get?, get?, lookup_ofList_concat]
  split
  · exact List.getElem?_concat_length
  · cases found : (ofList records).index.lookup (Text.lowerCase name) with
    | none => rfl
    | some place => exact List.getElem?_append_left (lt_length_of_lookup found)

/-- Names are looked up from the last field to the first. -/
theorem get?_ofList (records : List FieldRecord) (name : String) :
    (ofList records).get? name = records.reverse.find? (·.Answers name) := by
  induction records using List.reverseRecOn with
  | nil => rfl
  | append_singleton records last ih =>
      rw [get?_ofList_concat, ih, List.reverse_append, List.reverse_singleton,
        List.singleton_append, List.find?_cons]
      split <;> simp [*]

/-- Two names are the same if both find fields and these are shown by one name. -/
theorem sameField_iff (catalog : FieldCatalog) : catalog.sameField name other = true ↔
    ∃ shown, (catalog.get? name).map (·.name) = some shown ∧
      (catalog.get? other).map (·.name) = some shown := by
  rw [sameField]
  cases catalog.get? name <;> cases catalog.get? other <;> simp
  exact eq_comm

/-- The catalog finds the last field of each name. -/
structure FindsLast (catalog : FieldCatalog) (records : List FieldRecord) : Prop where
  /-- Its fields are these. -/
  records_eq : catalog.records = records
  /-- No name leads out of the list. -/
  place_lt : ∀ name place, catalog.index.lookup (Text.lowerCase name) = some place →
    place < catalog.records.length
  /-- What is found has the name, and no later field has it. -/
  found_iff : ∀ name record, catalog.get? name = some record ↔
    ∃ front back, records = front ++ record :: back ∧ record.Answers name ∧
      ∀ later ∈ back, ¬ later.Answers name
  /-- Nothing is found if no field has the name. -/
  absent_iff : ∀ name, catalog.get? name = none ↔ ∀ record ∈ records, ¬ record.Answers name

/-- The catalog compares names by the fields that they find, without regard to case. -/
structure ComparesNames (catalog : FieldCatalog) : Prop where
  /-- The case of a name makes no difference to what it finds. -/
  get?_congr : ∀ name other, Text.lowerCase name = Text.lowerCase other →
    catalog.get? name = catalog.get? other
  /-- Two names are the same if both find fields and these are shown by one name. -/
  sameField_iff : ∀ name other, catalog.sameField name other = true ↔
    ∃ shown, (catalog.get? name).map (·.name) = some shown ∧
      (catalog.get? other).map (·.name) = some shown
  /-- The order of the names makes no difference to whether they are the same. -/
  symm : ∀ name other, catalog.sameField name other = true → catalog.sameField other name = true
  /-- Names that are the same as a third one are the same as each other. -/
  trans : ∀ name other third, catalog.sameField name other = true →
    catalog.sameField other third = true → catalog.sameField name third = true
  /-- A name is the same as itself exactly if it finds a field. -/
  refl_iff : ∀ name, catalog.sameField name name = true ↔ ∃ record, catalog.get? name = some record
  /-- The case of the names makes no difference. -/
  congr : ∀ left left' right right', Text.lowerCase left = Text.lowerCase left' →
    Text.lowerCase right = Text.lowerCase right' →
    catalog.sameField left right = catalog.sameField left' right'

theorem findsLast_ofList (records : List FieldRecord) : FindsLast (ofList records) records where
  records_eq := rfl
  place_lt _ _ := lt_length_of_lookup
  found_iff name record := by
    rw [get?_ofList, List.find?_eq_some_iff_append, decide_eq_true_iff]
    constructor
    · rintro ⟨has_name, back, front, reverse_eq, not_later⟩
      refine ⟨front.reverse, back.reverse, ?_, has_name, fun later mem => ?_⟩
      · rw [← List.reverse_inj, reverse_eq]
        simp
      · simpa using not_later later (List.mem_reverse.1 mem)
    · rintro ⟨front, back, rfl, has_name, not_later⟩
      refine ⟨has_name, back.reverse, front.reverse, by simp, fun later mem => ?_⟩
      simpa using not_later later (List.mem_reverse.1 mem)
  absent_iff name := by
    rw [get?_ofList, List.find?_eq_none]
    simp

theorem comparesNames (catalog : FieldCatalog) : ComparesNames catalog := by
  have get?_congr : ∀ {name other}, Text.lowerCase name = Text.lowerCase other →
      catalog.get? name = catalog.get? other := fun same => by rw [get?, same, get?]
  refine ⟨fun _ _ => get?_congr, fun _ _ => catalog.sameField_iff, ?_, ?_, ?_, ?_⟩
  · intro name other same
    obtain ⟨shown, name_shown, other_shown⟩ := catalog.sameField_iff.1 same
    exact catalog.sameField_iff.2 ⟨shown, other_shown, name_shown⟩
  · intro name other third same same'
    obtain ⟨shown, name_shown, other_shown⟩ := catalog.sameField_iff.1 same
    obtain ⟨shown', other_shown', third_shown⟩ := catalog.sameField_iff.1 same'
    obtain rfl := Option.some.inj (other_shown.symm.trans other_shown')
    exact catalog.sameField_iff.2 ⟨shown, name_shown, third_shown⟩
  · intro name
    rw [sameField_iff]
    cases catalog.get? name <;> simp
  · intro left left' right right' left_same right_same
    rw [sameField, sameField, get?_congr left_same, get?_congr right_same]

/-- A catalog of a list of fields finds the last field of each name, and compares names by what
they find. -/
theorem ofList_resolves (records : List FieldRecord) :
    FindsLast (ofList records) records ∧ ComparesNames (ofList records) :=
  ⟨findsLast_ofList records, comparesNames _⟩

end FieldCatalog
end WorkItemQuery
