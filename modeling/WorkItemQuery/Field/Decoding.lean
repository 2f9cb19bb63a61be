import WorkItemQuery.Field
import WorkItemQuery.Json.Reader

/-!
# Reading field lists

A field list is an array of records, or an object whose member `value` is one.  A record is an
object, or an array of its parts in order.  Members with other names do not matter, but a known
name must not come twice.
-/

namespace WorkItemQuery

/-- Why a text is no field list. -/
inductive FieldListError where
  /-- The text is not JSON. -/
  | json (failure : Json.Failure)
  /-- The text is JSON, but not of a field list. -/
  | shape
deriving DecidableEq, Repr

/-- The error in words, for the text that it is about. -/
def FieldListError.message (text : String) : FieldListError → String
  | .json failure => failure.message text.toList
  | .shape => "data did not match any variant of untagged enum RawFieldList"

namespace FieldRecord

/-- The value of a member that may be absent.  There is none to be had if the name comes twice. -/
def member? (members : List (String × Json)) (name : String) : Option (Option Json) :=
  match members.filter (·.1 == name) with
  | [] => some none
  | [member] => some (some member.2)
  | _ => none

/-- A text that must be there. -/
def textOf : Option Json → Option String
  | some (.string text) => some text
  | _ => none

/-- A text that may be null or absent. -/
def optionalTextOf : Option Json → Option (Option String)
  | none => some none
  | some .null => some none
  | some (.string text) => some (some text)
  | _ => none

/-- A truth value that may be absent. -/
def flagOf : Option Json → Option Bool
  | none => some false
  | some (.bool value) => some value
  | _ => none

/-- The record of its parts, each of which may be absent. -/
def ofParts (name referenceName fieldType readOnly isIdentity description : Option Json) :
    Option FieldRecord := do
  let name ← textOf name
  let referenceName ← textOf referenceName
  let fieldType? ← optionalTextOf fieldType
  let readOnly ← flagOf readOnly
  let isIdentity ← flagOf isIdentity
  let description? ← optionalTextOf description
  return { name, referenceName, fieldType?, readOnly, isIdentity, description? }

/-- The record that a value stands for. -/
def ofJson? : Json → Option FieldRecord
  | .array items =>
    if items.length ≤ 6 then
      ofParts items[0]? items[1]? items[2]? items[3]? items[4]? items[5]?
    else none
  | .object members => do
    let name ← member? members "name"
    let referenceName ← member? members "referenceName"
    let fieldType ← member? members "type"
    let readOnly ← member? members "readOnly"
    let isIdentity ← member? members "isIdentity"
    let description ← member? members "description"
    ofParts name referenceName fieldType readOnly isIdentity description
  | _ => none

/-- The records that the items of an array stand for. -/
def listOfJson? : Json → Option (List FieldRecord)
  | .array items => items.mapM ofJson?
  | _ => none

/-- The field list that a value stands for. -/
def fieldListOfJson? : Json → Option (List FieldRecord)
  | .object members => do
    let value ← member? members "value"
    let list ← value
    listOfJson? list
  | value => listOfJson? value

/-- The field list of a text. -/
def parseList (text : String) : Except FieldListError (List FieldRecord) :=
  match Json.readFirst text.toList with
  | .error failure => .error (.json failure)
  | .ok (value, rest) =>
    match fieldListOfJson? value with
    | none => .error .shape
    | some records =>
      match Json.expectEnd rest with
      | .error failure => .error (.json failure)
      | .ok () => .ok records

end FieldRecord
end WorkItemQuery
