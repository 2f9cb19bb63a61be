import WorkItemQuery.Diagnostic.Mark
import WorkItemQuery.Text

/-!
# Spans over several lines

A span over several lines is shown by a bar beside them.  Bars of spans that share a line have
different depths.
-/

namespace WorkItemQuery

open Excerpt (Line Place Spot)

/-- A span over several lines. -/
structure Band where
  /-- Where it starts. -/
  start : Place
  /-- Where it stops. -/
  stop : Place
  /-- What is written at its end. -/
  label? : Option String
  /-- It marks the problem itself. -/
  isPrimary : Bool
  /-- The depth of its bar. -/
  depth : Nat := 1
  /-- A later band covers the very same text, and shows it for both. -/
  isDouble : Bool := false
deriving DecidableEq, Repr

namespace Band

/-- Two bands cover the same text. -/
def isSame (left right : Band) : Bool := left.start == right.start && left.stop == right.stop

/-- Two bands share a line. -/
def sharesLine (left right : Band) : Bool :=
  (right.start.line ≤ left.start.line && left.start.line ≤ right.stop.line) ||
    (left.start.line ≤ right.start.line && right.start.line ≤ left.stop.line)

/-- One band comes before another: the one that starts on an earlier line, and of those that start
together the one that stops on a later line. -/
def comesBefore (left right : Band) : Bool :=
  left.start.line < right.start.line ||
    (left.start.line == right.start.line && right.stop.line ≤ left.stop.line)

/-- Makes room for a band among those up to it.  Bands that share a line with it go deeper, until
one does not.  Bands that cover the text of a problem mark the problem as well. -/
def makeRoom (problems : List Band) (index : Nat) (band : Band) : List (Band × Nat) → List Band
  | [] => []
  | (other, place) :: rest =>
    if !band.isSame other && band.sharesLine other then
      { other with depth := other.depth + 1 } :: makeRoom problems index band rest
    else if band.isSame other && index != place then
      { other with isDouble := true } :: makeRoom problems index band rest
    else
      { other with isPrimary := other.isPrimary || problems.any (·.isSame other) } ::
        rest.map (·.1)

/-- Gives bands the depths of their bars, counted from the left. -/
def settle (bands : List Band) : List Band :=
  let sorted := bands.mergeSort comesBefore
  let settled := sorted.zipIdx.foldl (fun settled (band, index) =>
    makeRoom ((sorted.take (index + 1)).filter (·.isPrimary)) index band settled.zipIdx) sorted
  let deepest := (settled.map (·.depth)).foldl max 0
  settled.map fun band => { band with depth := deepest - band.depth + 1 }

/-- Lines that hold nothing but a bracket. -/
def loneBrackets : List (List Char) :=
  [['('], [')'], ['['], [']'], ['\x7b'], ['\x7d']]

/-- The line says something: it is not blank, a remark or a lone bracket. -/
def isTelling (text : List Char) : Bool :=
  let text := Text.trim text
  let isRemark := ['/', '/'].isPrefixOf text &&
    !(['/', '/', '/'].isPrefixOf text || ['/', '/', '!'].isPrefixOf text)
  !isRemark && !text.isEmpty && !loneBrackets.contains text

/-- The numbers of the lines that are shown between the first line of a band and its last one: up
to three behind the first one, without those at their end that tell nothing, and the one before
the last. -/
def inner (lines : List Line) (band : Band) : List Nat :=
  let tells number := (Excerpt.textOf? lines number).any isTelling
  let first := band.start.line
  let middle := min (first + 4) band.stop.line
  let head := (List.range' first (middle - first)).reverse.dropWhile (!tells ·)
  let before := band.stop.line - 1
  head.reverse.drop 1 ++ if middle < before && tells before then [before] else []

/-- The mark on the first line of a band. -/
def opening (band : Band) : Mark where
  start := band.start.toSpot
  stop := ⟨band.start.column + 1, band.start.letters + 1⟩
  label? := none
  isPrimary := band.isPrimary
  part := .opening band.depth

/-- The mark on a line in the middle of a band. -/
def passing (band : Band) : Mark where
  start := ⟨0, 0⟩
  stop := ⟨0, 0⟩
  label? := none
  isPrimary := band.isPrimary
  part := .passing band.depth

/-- The mark on the last line of a band. -/
def closing (band : Band) : Mark where
  start := ⟨band.stop.column - 1, band.stop.letters - 1⟩
  stop := band.stop.toSpot
  label? := band.label?
  isPrimary := band.isPrimary
  part := if band.isDouble then .whole else .closing band.depth

/-- The marks of a band with the numbers of their lines. -/
def marks (lines : List Line) (band : Band) : List (Nat × Mark) :=
  if band.isDouble then [(band.stop.line, band.closing)]
  else
    (band.start.line, band.opening) :: (band.inner lines).map (·, band.passing) ++
      [(band.stop.line, band.closing)]

end Band
end WorkItemQuery
