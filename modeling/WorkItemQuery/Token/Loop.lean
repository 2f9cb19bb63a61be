import WorkItemQuery.Token.Lexer

/-!
# Tokens in a loop

The same tokens as a loop makes them, in one round for each piece of the text.  Where pieces have no
kind, the loop remembers where the first of them starts; at the next piece with a kind, or at the
end of the text, one token is made of them all.  The line and the column of an offset are found in
an index of the offsets at which lines start.

A stretch of the text is cut out between two offsets.  There is no answer where an offset does not
lie between two characters, and none for a text that is too long for offsets of 32 bits.
-/

namespace WorkItemQuery
namespace Lexer

/-! ## Offsets in a text -/

/-- What stands before and behind an offset, if it lies between two characters or at an end. -/
def splitAt? : Nat → List Char → Option (List Char × List Char)
  | 0, text => some ([], text)
  | _ + 1, [] => none
  | offset + 1, char :: text =>
    if char.utf8Size ≤ offset + 1 then do
      let (front, back) ← splitAt? (offset + 1 - char.utf8Size) text
      return (char :: front, back)
    else none

/-- The stretch of a text between two offsets. -/
def slice? (text : List Char) (start stop : Nat) : Option (List Char) :=
  if start ≤ stop then do
    let (_, behind) ← splitAt? start text
    let (inside, _) ← splitAt? (stop - start) behind
    return inside
  else none

/-! ## Lines -/

/-- The first index between two bounds that does not pass, where those that pass come first: halves
the distance of the bounds until they meet. -/
def partitionPoint (passes : Nat → Bool) (low high : Nat) : Nat :=
  if low < high then
    let middle := low + (high - low) / 2
    if passes middle then partitionPoint passes (middle + 1) high
    else partitionPoint passes low middle
  else low
termination_by high - low

/-- The offsets behind the line feeds of a text that starts at an offset. -/
def startsFrom : Nat → List Char → List Nat
  | _, [] => []
  | offset, char :: text =>
    let behind := offset + char.utf8Size
    if char = '\n' then behind :: startsFrom behind text else startsFrom behind text

/-- A number cut down to 32 bits. -/
def word (value : Nat) : Nat := value % Span.bound

/-- A text with the offsets at which its lines start. -/
structure LineIndex where
  /-- The text. -/
  text : List Char
  /-- Where its lines start. -/
  starts : List Nat

namespace LineIndex

/-- The index of a text. -/
def of (text : List Char) : LineIndex := ⟨text, 0 :: startsFrom 0 text⟩

variable (lines : LineIndex)

/-- How many lines start at an offset or before. -/
def lineOf (offset : Nat) : Nat :=
  partitionPoint (fun index => lines.starts[index]?.any (· ≤ offset)) 0 lines.starts.length

/-- The line and the column of an offset. -/
def position? (offset : Nat) : Option (Nat × Nat) :=
  match lines.lineOf offset with
  | 0 => none
  | before + 1 => do
    let start ← lines.starts[before]?
    let passed ← slice? lines.text start offset
    return (word (before + 1), word (passed.length + 1))

/-- The token of a kind between two offsets, unless its last column is too large. -/
def token? (kind : Kind) (start stop : Nat) : Option Token := do
  let (line, column) ← lines.position? start
  let text ← slice? lines.text start stop
  let token : Token := ⟨⟨kind, line, column, word start, .ofList text⟩, []⟩
  if token.endColumn < Span.bound then return token else none

end LineIndex

/-! ## The loop -/

/-- The number of bytes of a piece. -/
def Piece.size (piece : Piece) : Nat := (String.ofList piece.text).utf8ByteSize

/-- How far the loop has come. -/
structure Progress where
  /-- Where the next piece starts. -/
  offset : Nat := 0
  /-- Where the first of the pieces without a kind starts that wait for their token. -/
  pending? : Option Nat := none
  /-- The tokens that have been made. -/
  tokens : List Token := []

/-- Makes the token of the pieces that wait, which stop at an offset. -/
def LineIndex.flush? (lines : LineIndex) (stop : Nat) (progress : Progress) : Option Progress :=
  match progress.pending? with
  | none => some progress
  | some start => do
    let token ← lines.token? .unrecognized start stop
    return { progress with pending? := none, tokens := progress.tokens ++ [token] }

/-- One round of the loop. -/
def LineIndex.round? (lines : LineIndex) (progress : Progress) (piece : Piece) :
    Option Progress :=
  let stop := progress.offset + piece.size
  match piece.kind? with
  | none =>
    some { progress with
      offset := stop, pending? := progress.pending?.or (some progress.offset) }
  | some kind => do
    let flushed ← lines.flush? progress.offset progress
    if kind.isTrivia then return { flushed with offset := stop }
    else do
      let token ← lines.token? kind progress.offset stop
      return { flushed with offset := stop, tokens := flushed.tokens ++ [token] }

/-- The tokens of a query text, one round after another, and the end mark. -/
def loop? (source : String) : Option (List Token) := do
  let lines := LineIndex.of source.toList
  let progress ← (pieces source.toList).foldlM lines.round? {}
  let flushed ← lines.flush? source.utf8ByteSize progress
  let (line, column) ← lines.position? source.utf8ByteSize
  if source.utf8ByteSize < Span.bound then
    return flushed.tokens ++ [.endMark line column source.utf8ByteSize flushed.tokens.getLast?]
  else none

end Lexer
end WorkItemQuery
