/-!
# Files

A file is read as text in the UTF-8 encoding.  A directory of files, without directories in it, is
enough to say what reading a path answers.
-/

namespace WorkItemQuery
namespace CommandLine

/-- Why a file cannot be read. -/
inductive ReadError where
  | notFound
  | notADirectory
  | isADirectory
  | nameTooLong
  | nulInName
  | notText
  /-- Any other reason, in words. -/
  | other (message : String)
deriving DecidableEq, Repr

/-- The reason in words. -/
def ReadError.message : ReadError → String
  | .notFound => "No such file or directory (os error 2)"
  | .notADirectory => "Not a directory (os error 20)"
  | .isADirectory => "Is a directory (os error 21)"
  | .nameTooLong => "File name too long (os error 36)"
  | .nulInName => "file name contained an unexpected NUL byte"
  | .notText => "stream did not contain valid UTF-8"
  | .other message => message

/-- The text that bytes encode. -/
def decodeText (bytes : ByteArray) : Except ReadError String :=
  match String.fromUTF8? bytes with
  | some text => .ok text
  | none => .error .notText

/-- The files of a directory by their names. -/
abbrev Directory := List (String × ByteArray)

namespace Directory

/-- The parts of a path between its slashes. -/
def splitPath (path : String) : List String :=
  (path.toList.splitOn '/').map String.ofList

/-- A part of a path that stays where it is. -/
def isStep (part : String) : Bool := part == "" || part == "."

/-- The most bytes of a path. -/
def longestPath : Nat := 4095

/-- The most bytes of a part of a path. -/
def longestPart : Nat := 255

/-- Follows the parts of a path from a place outside the directory, where nothing is known but
that the place and the ones above it are directories. -/
def followOutside : List String → Except ReadError ByteArray
  | [] => .error .isADirectory
  | part :: rest =>
    if isStep part || part == ".." then followOutside rest
    else if longestPart < part.utf8ByteSize then .error .nameTooLong
    else .error .notFound

/-- Follows the parts of a path from a directory of files. -/
def follow (directory : Directory) : List String → Except ReadError ByteArray
  | [] => .error .isADirectory
  | part :: rest =>
    if isStep part then directory.follow rest
    else if part = ".." then followOutside rest
    else if longestPart < part.utf8ByteSize then .error .nameTooLong
    else
      match directory.lookup part, rest with
      | none, _ => .error .notFound
      | some bytes, [] => .ok bytes
      | some _, _ :: _ => .error .notADirectory

/-- The text of the file at a path. -/
def read (directory : Directory) (path : String) : Except ReadError String :=
  if path.toList.contains '\x00' then .error .nulInName
  else if longestPath < path.utf8ByteSize then .error .nameTooLong
  else
    match path.toList with
    | [] => .error .notFound
    | first :: _ => do
      let parts := splitPath path
      let bytes ← if first = '/' then followOutside parts else directory.follow parts
      decodeText bytes

end Directory
end CommandLine
end WorkItemQuery
