import WorkItemQuery.Field.Decoding
import WorkItemQuery.Proofs.Json.Writing
import WorkItemQuery.Proofs.Steps

/-!
# Field lists back from their texts

A list of records is written as an array of objects.  It is read back from every text of that
array, and of an object with the array as its only member `value`.  In the object of a record the
order of the members makes no difference, nor do members with other names, nor whether a member
with its default value is there.
-/

namespace WorkItemQuery
namespace FieldRecord

open Json

/-- The members of the object of a record. -/
def members (record : FieldRecord) : List (String × Json) :=
  [("name", .string record.name),
   ("referenceName", .string record.referenceName),
   ("type", .text? record.fieldType?),
   ("readOnly", .bool record.readOnly),
   ("isIdentity", .bool record.isIdentity),
   ("description", .text? record.description?)]

/-- The members that may be left out. -/
def defaults : List (String × Json) :=
  [("type", .null), ("readOnly", .bool false), ("isIdentity", .bool false), ("description", .null)]

/-- An object with the members of a record in any order, some of those with default values left
out, and any members with other names among them. -/
def IsObjectOf (record : FieldRecord) (object : List (String × Json)) : Prop :=
  ∃ kept extra, object.Perm (kept ++ extra) ∧ kept.Sublist record.members ∧
    (∀ member ∈ record.members, member ∈ kept ∨ member ∈ defaults) ∧
    ∀ member ∈ extra, member.1 ∉ record.members.map Prod.fst

/-- A value that stands for a list of records: an array of their objects, or an object with this
array as its only member `value`. -/
inductive IsListOf (records : List FieldRecord) : Json → Prop where
  | bare {objects : List (List (String × Json))}
      (are_objects : List.Forall₂ IsObjectOf records objects) :
      IsListOf records (.array (objects.map .object))
  | envelope {objects : List (List (String × Json))} {front back : List (String × Json)}
      (are_objects : List.Forall₂ IsObjectOf records objects)
      (only : ∀ member ∈ front ++ back, member.1 ≠ "value") :
      IsListOf records (.object (front ++ ("value", .array (objects.map .object)) :: back))

variable {record : FieldRecord} {records : List FieldRecord} {name : String} {value : Json}
  {object : List (String × Json)}

/-! ## Records -/

theorem filter_members (mem : (name, value) ∈ record.members) :
    record.members.filter (·.1 == name) = [(name, value)] := by
  simp only [members, List.mem_cons, Prod.mk.injEq, List.not_mem_nil, or_false] at mem
  obtain ⟨rfl, rfl⟩ | ⟨rfl, rfl⟩ | ⟨rfl, rfl⟩ | ⟨rfl, rfl⟩ | ⟨rfl, rfl⟩ | ⟨rfl, rfl⟩ := mem <;> rfl

/-- A member of a record is found in each of its objects, or may be left out. -/
theorem IsObjectOf.member?_eq (is_object : IsObjectOf record object)
    (mem : (name, value) ∈ record.members) :
    member? object name = some (some value) ∨
      member? object name = some none ∧ (name, value) ∈ defaults := by
  obtain ⟨kept, extra, perm, kept_sublist, kept_or_default, extra_unknown⟩ := is_object
  have known : name ∈ record.members.map Prod.fst := List.mem_map_of_mem mem
  have no_extra : extra.filter (·.1 == name) = [] := by
    refine List.filter_eq_nil_iff.mpr fun other other_mem same => ?_
    exact extra_unknown other other_mem (eq_of_beq same ▸ known)
  have filter_perm := perm.filter (·.1 == name)
  rw [List.filter_append, no_extra, List.append_nil] at filter_perm
  have filter_sublist := kept_sublist.filter (·.1 == name)
  rw [filter_members mem] at filter_sublist
  obtain none_kept | is_kept := List.sublist_singleton.mp filter_sublist
  · right
    have is_default := (kept_or_default (name, value) mem).resolve_left fun mem_kept =>
      List.filter_eq_nil_iff.mp none_kept _ mem_kept (beq_self_eq_true name)
    rw [none_kept] at filter_perm
    rw [member?, filter_perm.eq_nil]
    exact ⟨rfl, is_default⟩
  · left
    rw [is_kept] at filter_perm
    rw [member?, List.perm_singleton.mp filter_perm]

/-- What a record has for a member is read from each of its objects, if it is read from the member
itself and, where the member may be left out, from nothing. -/
theorem IsObjectOf.exists_found {α : Type} {read : Option Json → Option α} {answer : α}
    (is_object : IsObjectOf record object) (mem : (name, value) ∈ record.members)
    (present : read (some value) = some answer)
    (absent : (name, value) ∈ defaults → read none = some answer) :
    ∃ found, member? object name = some found ∧ read found = some answer := by
  obtain found | ⟨not_found, is_default⟩ := is_object.member?_eq mem
  · exact ⟨some value, found, present⟩
  · exact ⟨none, not_found, absent is_default⟩

theorem IsObjectOf.exists_text {text : String} (is_object : IsObjectOf record object)
    (mem : (name, .string text) ∈ record.members) :
    ∃ found, member? object name = some found ∧ textOf found = some text := by
  refine is_object.exists_found mem rfl fun is_default => ?_
  simp [defaults] at is_default

theorem IsObjectOf.exists_optionalText {text? : Option String}
    (is_object : IsObjectOf record object) (mem : (name, .text? text?) ∈ record.members) :
    ∃ found, member? object name = some found ∧ optionalTextOf found = some text? := by
  refine is_object.exists_found mem (by cases text? <;> rfl) fun is_default => ?_
  cases text? with
  | none => rfl
  | some text => simp [defaults, Json.text?] at is_default

theorem IsObjectOf.exists_flag {flag : Bool} (is_object : IsObjectOf record object)
    (mem : (name, .bool flag) ∈ record.members) :
    ∃ found, member? object name = some found ∧ flagOf found = some flag := by
  refine is_object.exists_found mem rfl fun is_default => ?_
  cases flag with
  | false => rfl
  | true => simp [defaults] at is_default

/-- A record is read back from each of its objects. -/
theorem IsObjectOf.ofJson?_eq (is_object : IsObjectOf record object) :
    ofJson? (.object object) = some record := by
  have mem {index : Nat} {member : String × Json} (found : record.members[index]? = some member) :
      member ∈ record.members := List.mem_of_getElem? found
  obtain ⟨_, name_found, name_eq⟩ :=
    is_object.exists_text (mem (rfl : record.members[0]? = some _))
  obtain ⟨_, reference_found, reference_eq⟩ :=
    is_object.exists_text (mem (rfl : record.members[1]? = some _))
  obtain ⟨_, type_found, type_eq⟩ :=
    is_object.exists_optionalText (mem (rfl : record.members[2]? = some _))
  obtain ⟨_, readOnly_found, readOnly_eq⟩ :=
    is_object.exists_flag (mem (rfl : record.members[3]? = some _))
  obtain ⟨_, identity_found, identity_eq⟩ :=
    is_object.exists_flag (mem (rfl : record.members[4]? = some _))
  obtain ⟨_, description_found, description_eq⟩ :=
    is_object.exists_optionalText (mem (rfl : record.members[5]? = some _))
  simp only [ofJson?, name_found, reference_found, type_found, readOnly_found, identity_found,
    description_found, Option.bind_eq_bind, Option.bind_some, ofParts, name_eq, reference_eq,
    type_eq, readOnly_eq, identity_eq, description_eq]
  rfl

/-- The object that is written for a record is one of its objects. -/
theorem isObjectOf_members (record : FieldRecord) : IsObjectOf record record.members := by
  refine ⟨record.members, [], ?_, List.Sublist.refl _, fun _ mem => .inl mem, nofun⟩
  rw [List.append_nil]

/-! ## Lists -/

theorem listOfJson?_eq {objects : List (List (String × Json))}
    (are_objects : List.Forall₂ IsObjectOf records objects) :
    listOfJson? (.array (objects.map .object)) = some records := by
  refine mapM_eq_of_forall₂ (List.forall₂_map_left_iff.2 (are_objects.flip.imp ?_))
  exact fun _ _ => IsObjectOf.ofJson?_eq

theorem filter_only {front back : List (String × Json)}
    (only : ∀ member ∈ front ++ back, member.1 ≠ name) :
    (front ++ (name, value) :: back).filter (·.1 == name) = [(name, value)] := by
  have none_front : front.filter (·.1 == name) = [] :=
    List.filter_eq_nil_iff.mpr fun member mem same =>
      only member (List.mem_append_left _ mem) (eq_of_beq same)
  have none_back : back.filter (·.1 == name) = [] :=
    List.filter_eq_nil_iff.mpr fun member mem same =>
      only member (List.mem_append_right _ mem) (eq_of_beq same)
  have same : ((name, value).1 == name) = true := beq_self_eq_true name
  rw [List.filter_append, none_front, List.nil_append, List.filter_cons, if_pos same, none_back]

/-- The records are read back from each value that stands for them. -/
theorem IsListOf.fieldListOfJson?_eq (is_list : IsListOf records value) :
    fieldListOfJson? value = some records := by
  cases is_list with
  | bare are_objects => exact listOfJson?_eq are_objects
  | envelope are_objects only =>
      rw [fieldListOfJson?, member?, filter_only only]
      exact listOfJson?_eq are_objects

/-- The records are read back from each text of a value that stands for them. -/
theorem parseList_eq_ok {text : String} (is_list : IsListOf records value)
    (is_text : IsText value text) : parseList text = .ok records := by
  obtain ⟨rest, first_eq, end_eq⟩ := readFirst_of_isText is_text
  rw [parseList, first_eq]
  simp only [is_list.fieldListOfJson?_eq, end_eq]

/-- The array that is written for a list of records. -/
def listToJson (records : List FieldRecord) : Json := .array (records.map toJson)

theorem forall₂_members (records : List FieldRecord) :
    List.Forall₂ IsObjectOf records (records.map members) := by
  rw [List.forall₂_map_right_iff, List.forall₂_same]
  exact fun record _ => isObjectOf_members record

theorem listToJson_eq (records : List FieldRecord) :
    listToJson records = .array ((records.map members).map .object) := by
  rw [List.map_map]
  rfl

theorem fits_text? (text? : Option String) (depth : Nat) : Fits depth (.text? text?) := by
  cases text? <;> cases depth <;> trivial

theorem fits_members (depth : Nat) :
    ∀ member ∈ record.members, Fits depth member.2 := by
  simp only [members, List.forall_mem_cons]
  refine ⟨?_, ?_, fits_text? _ depth, ?_, ?_, fits_text? _ depth, nofun⟩
  all_goals cases depth <;> trivial

theorem fits_listToJson (records : List FieldRecord) (depth : Nat) :
    Fits (depth + 2) (listToJson records) := by
  intro item mem
  obtain ⟨record, -, rfl⟩ := List.mem_map.mp mem
  exact fits_members depth

theorem fits_envelope {front back : List (String × Json)} {depth : Nat}
    (fits : ∀ member ∈ front ++ back, Fits depth member.2) (value_fits : Fits depth value) :
    Fits (depth + 1) (.object (front ++ (name, value) :: back)) := by
  intro member mem
  obtain mem | _ | ⟨_, mem⟩ := List.mem_append.mp mem
  · exact fits member (List.mem_append_left _ mem)
  · exact value_fits
  · exact fits member (List.mem_append_right _ mem)

/-- Lists of records are read back from what is written for them, as an array and in an envelope,
and from every other text of their objects. -/
theorem lists_read_back :
    (∀ records,
      parseList (listToJson records).compact = .ok records ∧
        parseList (listToJson records).pretty = .ok records) ∧
    (∀ records front back,
      (∀ member ∈ front ++ back, member.1 ≠ "value" ∧ Fits (maxDepth - 1) member.2) →
        let envelope := Json.object (front ++ ("value", listToJson records) :: back)
        parseList envelope.compact = .ok records ∧ parseList envelope.pretty = .ok records) ∧
    ∀ records value text, IsListOf records value → IsText value text →
      parseList text = .ok records := by
  refine ⟨fun records => ?_, fun records front back others => ?_,
    fun _ _ _ => parseList_eq_ok⟩
  · have is_list : IsListOf records (listToJson records) :=
      listToJson_eq records ▸ .bare (forall₂_members records)
    have fits : Fits maxDepth (listToJson records) := fits_listToJson records 125
    exact ⟨parseList_eq_ok is_list (isText_compact fits),
      parseList_eq_ok is_list (isText_pretty fits)⟩
  · intro envelope
    have is_list : IsListOf records envelope := by
      have only : ∀ member ∈ front ++ back, member.1 ≠ "value" := fun member mem =>
        (others member mem).1
      have is_list := IsListOf.envelope (forall₂_members records) only
      rwa [← listToJson_eq] at is_list
    have fits : Fits maxDepth envelope :=
      fits_envelope (fun member mem => (others member mem).2) (fits_listToJson records 124)
    exact ⟨parseList_eq_ok is_list (isText_compact fits),
      parseList_eq_ok is_list (isText_pretty fits)⟩

/-- A record whose name is written by an escape, with its members in another order and without those
that may be left out. -/
theorem lists_read_back_reordered :
    IsListOf [{ name := "A", referenceName := "a" }]
        (.array [.object [("referenceName", .string "a"), ("name", .string "A")]]) ∧
      IsText (.array [.object [("referenceName", .string "a"), ("name", .string "A")]])
        "[\x7b\"referenceName\":\"a\" , \"name\":\"\\u0041\"\x7d]" ∧
      parseList "[\x7b\"referenceName\":\"a\" , \"name\":\"\\u0041\"\x7d]" =
        .ok [{ name := "A", referenceName := "a" }] := by
  have is_list : IsListOf [{ name := "A", referenceName := "a" }]
      (.array [.object [("referenceName", .string "a"), ("name", .string "A")]]) := by
    refine .bare (.cons ⟨[("name", .string "A"), ("referenceName", .string "a")], [], ?_, ?_, ?_,
      nofun⟩ .nil)
    · exact .swap _ _ _
    · exact List.sublist_append_left _ _
    · simp [members, defaults, Json.text?]
  have is_text : IsText (.array [.object [("referenceName", .string "a"), ("name", .string "A")]])
      "[\x7b\"referenceName\":\"a\" , \"name\":\"\\u0041\"\x7d]" := by
    have plain (text : String) := spellsString_writeString text
    have space : IsGap [' '] := isGap_space
    have escaped : SpellsString "A" ['"', '\\', 'u', '0', '0', '4', '1', '"'] :=
      ⟨[['\\', 'u', '0', '0', '4', '1']], .cons (.code ⟨0, 0, 4, 1, rfl, rfl⟩) .nil, rfl⟩
    have reference : SpellsMember (Spells 125) ("referenceName", .string "a") _ :=
      .intro (plain "referenceName") isGap_nil isGap_nil (.inl (.string (plain "a")))
    have name : SpellsMember (Spells 125) ("name", .string "A") _ :=
      .intro (plain "name") isGap_nil isGap_nil (.inl (.string escaped))
    have members := Separated.more isGap_nil reference space (.last space name isGap_nil)
    have object : Spells 126 (.object [("referenceName", .string "a"), ("name", .string "A")]) _ :=
      .inr (.object (.inr members))
    exact .of_spells (.inr (.array (.inr (.last isGap_nil object isGap_nil))))
  exact ⟨is_list, is_text, lists_read_back.2.2 _ _ _ is_list is_text⟩

end FieldRecord
end WorkItemQuery
