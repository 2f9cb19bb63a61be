import WorkItemQuery.Text.Quoted

/-!
# JSON values

A JSON value as it is written: numbers keep their text, and objects keep their members in order,
repeated names included.  The compact form has no blanks.  The pretty form has one member or item on
a line, two blanks further in than its object or array; empty ones stay on one line.
-/

namespace WorkItemQuery

/-- A JSON value. -/
inductive Json where
  | null
  | bool (value : Bool)
  /-- A number, by its text. -/
  | number (text : String)
  | string (value : String)
  | array (items : List Json)
  /-- An object, by its members in order. -/
  | object (members : List (String × Json))

namespace Json

/-- A natural number as a value. -/
def nat (value : Nat) : Json := .number (toString value)

/-- A text, or null. -/
def text? : Option String → Json
  | none => .null
  | some text => .string text

/-! ## Writing -/

/-- A character of a string.  Quotes, backslashes and control characters are escaped. -/
def escapeChar (char : Char) : List Char :=
  match char with
  | '"' => ['\\', '"']
  | '\\' => ['\\', '\\']
  | '\x08' => ['\\', 'b']
  | '\x0c' => ['\\', 'f']
  | '\n' => ['\\', 'n']
  | '\r' => ['\\', 'r']
  | '\t' => ['\\', 't']
  | _ =>
    if char.toNat < 0x10 then ['\\', 'u', '0', '0', '0'] ++ Text.hexDigits char.toNat
    else if char.toNat < 0x20 then ['\\', 'u', '0', '0'] ++ Text.hexDigits char.toNat
    else [char]

/-- A string between its quotes. -/
def writeString (text : String) : String :=
  .ofList ('"' :: text.toList.flatMap escapeChar ++ ['"'])

mutual

/-- A value in compact form. -/
def compact : Json → String
  | .null => "null"
  | .bool true => "true"
  | .bool false => "false"
  | .number text => text
  | .string text => writeString text
  | .array items => "[" ++ ",".intercalate (compactItems items) ++ "]"
  | .object members => "\x7b" ++ ",".intercalate (compactMembers members) ++ "\x7d"

/-- The items of an array in compact form. -/
def compactItems : List Json → List String
  | [] => []
  | item :: rest => item.compact :: compactItems rest

/-- The members of an object in compact form. -/
def compactMembers : List (String × Json) → List String
  | [] => []
  | (name, value) :: rest => (writeString name ++ ":" ++ value.compact) :: compactMembers rest

end

/-- A line break and the blanks of a depth. -/
def lineBreak (depth : Nat) : String := .ofList ('\n' :: List.replicate (2 * depth) ' ')

/-- Parts between two brackets, each on a line of its own one step further in. -/
def block (depth : Nat) (opening : String) (parts : List String) (closing : String) : String :=
  if parts.isEmpty then opening ++ closing
  else opening ++ lineBreak (depth + 1) ++ ("," ++ lineBreak (depth + 1)).intercalate parts ++
    lineBreak depth ++ closing

mutual

/-- A value in pretty form, at a depth. -/
def prettyAt (depth : Nat) : Json → String
  | .null => "null"
  | .bool true => "true"
  | .bool false => "false"
  | .number text => text
  | .string text => writeString text
  | .array items => block depth "[" (prettyItems (depth + 1) items) "]"
  | .object members => block depth "\x7b" (prettyMembers (depth + 1) members) "\x7d"

/-- The items of an array in pretty form, at a depth. -/
def prettyItems (depth : Nat) : List Json → List String
  | [] => []
  | item :: rest => item.prettyAt depth :: prettyItems depth rest

/-- The members of an object in pretty form, at a depth. -/
def prettyMembers (depth : Nat) : List (String × Json) → List String
  | [] => []
  | (name, value) :: rest =>
    (writeString name ++ ": " ++ value.prettyAt depth) :: prettyMembers depth rest

end

/-- A value in pretty form. -/
def pretty (value : Json) : String := value.prettyAt 0

end Json
end WorkItemQuery
