import WorkItemQuery.Json

/-!
# Field records

What is known of a field of a work item: its two names, and what kind of field it is.
-/

namespace WorkItemQuery

/-- A field of a work item. -/
structure FieldRecord where
  /-- The name that is shown, such as `Assigned To`. -/
  name : String
  /-- The name that identifies the field, such as `System.AssignedTo`. -/
  referenceName : String
  /-- The type of its values. -/
  fieldType? : Option String := none
  /-- Its values cannot be changed. -/
  readOnly : Bool := false
  /-- Its values are people. -/
  isIdentity : Bool := false
  /-- What the field is for. -/
  description? : Option String := none
deriving DecidableEq, Repr

/-- A field record as a value. -/
def FieldRecord.toJson (record : FieldRecord) : Json :=
  .object
    [("name", .string record.name),
     ("referenceName", .string record.referenceName),
     ("type", .text? record.fieldType?),
     ("readOnly", .bool record.readOnly),
     ("isIdentity", .bool record.isIdentity),
     ("description", .text? record.description?)]

end WorkItemQuery
