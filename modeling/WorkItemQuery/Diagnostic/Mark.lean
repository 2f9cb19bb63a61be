import WorkItemQuery.Diagnostic.Excerpt

/-!
# Marks on a line

A mark underlines a part of a line.  Its label stands beside it when there is room, and on a level
of its own below the line otherwise.  A span over several lines has a mark on its first line, one
on its last, and some in between that only carry its bar.
-/

namespace WorkItemQuery

open Excerpt (Spot)

/-- What a mark shows of its span. -/
inductive MarkPart where
  /-- All of a span that lies on one line. -/
  | whole
  /-- The first character of a span whose bar has a depth. -/
  | opening (depth : Nat)
  /-- A line in the middle of a span. -/
  | passing (depth : Nat)
  /-- The last character of a span. -/
  | closing (depth : Nat)
deriving DecidableEq, Repr

/-- An underlined part of a line. -/
structure Mark where
  /-- Where it starts. -/
  start : Spot
  /-- Where it stops. -/
  stop : Spot
  /-- What is written beside or below it. -/
  label? : Option String
  /-- It marks the problem itself. -/
  isPrimary : Bool
  /-- What it shows of its span. -/
  part : MarkPart
deriving DecidableEq, Repr

namespace Mark

/-- The number of columns of a mark. -/
def size (mark : Mark) : Nat := mark.stop.column - mark.start.column

/-- The mark has a label with text. -/
def hasLabel (mark : Mark) : Bool := mark.label?.any (!·.isEmpty)

/-- The depth of the bar that starts or ends at the mark. -/
def turn? (mark : Mark) : Option Nat :=
  match mark.part with
  | .opening depth | .closing depth => some depth
  | .whole | .passing _ => none

/-- The mark has a line to the bar of its span. -/
def takesSpace (mark : Mark) : Bool := mark.turn?.isSome

/-- The mark opens a span. -/
def isOpening (mark : Mark) : Bool :=
  match mark.part with
  | .opening _ => true
  | _ => false

/-- The mark only carries the bar of its span. -/
def isPassing (mark : Mark) : Bool :=
  match mark.part with
  | .passing _ => true
  | _ => false

/-- The first mark, made wider by some columns, meets the second. -/
def meets (first : Mark) (padding : Nat) (second : Mark) : Bool :=
  (second.start.column ≤ first.start.column && first.start.column < second.stop.column) ||
    (first.start.column ≤ second.start.column &&
      second.start.column < first.stop.column + padding)

/-- The columns that the label takes beside the mark, with the blanks around it. -/
def labelRoom (mark : Mark) : Nat :=
  match mark.label? with
  | none => 0
  | some label => label.utf8ByteSize + 2

/-- The column behind the label if it stands beside the mark. -/
def labelEnd (mark : Mark) : Nat :=
  match mark.label? with
  | none => mark.stop.column
  | some label => mark.stop.column + Text.width label.toList + 1

/-- The label of the mark cannot stand beside it, because of a mark to the left of it. -/
def crowdedBy (mark next : Mark) : Bool :=
  next.meets 0 mark && !(next.start == mark.start && next.stop == mark.stop && !next.hasLabel)

/-- The label of the next mark to the left, or the line to its bar, would run into the mark. -/
def crowds (mark next : Mark) (level : Nat) : Bool :=
  (next.hasLabel && next.meets next.labelRoom mark &&
      (mark.hasLabel || (next.stop.le mark.stop && level == 0))) ||
    (mark.takesSpace && next.hasLabel) || (mark.hasLabel && next.takesSpace) ||
    (mark.takesSpace && next.takesSpace)

/-- Gives each mark a level, going from right to left.  A label at level zero stands beside its
mark; others stand below it, one row further down for each level. -/
def levelsFrom (level : Nat) : List Mark → List (Nat × Mark)
  | [] => []
  | mark :: rest =>
    let level := if level = 0 ∧ mark.hasLabel ∧ rest.any mark.crowdedBy then 1 else level
    let next := if rest.any (mark.crowds · level) then level + 1 else level
    (level, mark) :: levelsFrom next rest

/-- The marks of a line with their levels, from right to left. -/
def levels (marks : List Mark) : List (Nat × Mark) :=
  levelsFrom 0 (marks.mergeSort fun left right => right.start.le left.start)

/-- One mark is drawn before another: the longer one, so that it stays visible, and of equal ones
the one of a note. -/
def drawnBefore (left right : Mark) : Bool :=
  right.size < left.size || (right.size == left.size && (!left.isPrimary || right.isPrimary))

end Mark
end WorkItemQuery
