import WorkItemQuery.Field
import WorkItemQuery.Text.LowerCase

/-!
# Field catalogs

A catalog finds a field by either of its names, without regard to case.  Where several fields
share a name, the last one is found.
-/

namespace WorkItemQuery

/-- A list of fields that can be looked up by name. -/
structure FieldCatalog where
  /-- The fields in the order in which they were given. -/
  records : List FieldRecord
  /-- The lower-case names with the places of their fields in the list, counted from zero. -/
  index : List (String × Nat)
deriving DecidableEq, Repr

namespace FieldCatalog

/-- The names under which a field is found. -/
def keys (record : FieldRecord) : List String :=
  [Text.lowerCase record.referenceName, Text.lowerCase record.name]

/-- Puts an entry into an index, in place of one with the same name if there is one. -/
def insert (index : List (String × Nat)) (entry : String × Nat) : List (String × Nat) :=
  if index.any (·.1 == entry.1) then
    index.map fun old => if old.1 == entry.1 then entry else old
  else index ++ [entry]

/-- The entries of the fields of a list, the first of which has a place. -/
def entriesFrom (place : Nat) : List FieldRecord → List (String × Nat)
  | [] => []
  | record :: rest =>
    (keys record).map (fun key => (key, place)) ++ entriesFrom (place + 1) rest

/-- The catalog of a list of fields. -/
def ofList (records : List FieldRecord) : FieldCatalog where
  records := records
  index := (entriesFrom 0 records).foldl insert []

/-- The number of fields. -/
def size (catalog : FieldCatalog) : Nat := catalog.records.length

/-- There are no fields. -/
def isEmpty (catalog : FieldCatalog) : Bool := catalog.records.isEmpty

/-- The field of a name, without regard to case. -/
def get? (catalog : FieldCatalog) (name : String) : Option FieldRecord :=
  (catalog.index.lookup (Text.lowerCase name)).bind (catalog.records[·]?)

/-- Both names are found, and their fields are shown by the same name. -/
def sameField (catalog : FieldCatalog) (left right : String) : Bool :=
  match catalog.get? left, catalog.get? right with
  | some left, some right => left.name == right.name
  | _, _ => false

end FieldCatalog
end WorkItemQuery
