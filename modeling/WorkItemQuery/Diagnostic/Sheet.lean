import WorkItemQuery.Diagnostic
import WorkItemQuery.Diagnostic.Window

/-!
# Sheets

A drawing has its lines on a sheet: the number of a line, a bar for every span that goes on beside
it, and its text.  Below the text come rows with the marks of the line and their labels.
-/

namespace WorkItemQuery

open Excerpt (Line)

/-- The number of columns of a screen. -/
def Sheet.screenWidth : Nat := 140

/-- The ink of what is about a problem. -/
def Severity.ink : Severity → Ink
  | .error => .error
  | .warning => .warning

/-- What all lines of a drawing have in common. -/
structure Sheet where
  /-- The severity of the diagnostic. -/
  severity : Severity
  /-- The columns for line numbers. -/
  digits : Nat
  /-- The number of bars beside the text. -/
  depth : Nat
  /-- What is shown of the lines. -/
  window : Window
deriving DecidableEq, Repr

/-- The columns in front of the text of a line: its number, a line, and the bars. -/
def Sheet.textColumn (digits depth : Nat) : Nat := digits + 3 + if depth = 0 then 0 else depth + 1

/-- A bar beside the text, by its depth and its ink. -/
abbrev Sheet.Bar := Nat × Ink

namespace Sheet

/-- The column of a bar. -/
def barColumn (sheet : Sheet) (depth : Nat) : Nat := sheet.digits + 2 + depth

/-- The column where the text of a line starts. -/
def textStart (sheet : Sheet) : Nat := textColumn sheet.digits sheet.depth

/-- The ink of a mark. -/
def inkOf (sheet : Sheet) (mark : Mark) : Ink :=
  if mark.isPrimary then sheet.severity.ink else .accent

/-- An empty row behind the line beside the text. -/
def gutter (sheet : Sheet) : Row := Row.blanks (sheet.digits + 1) ++ Row.of .accent "|"

/-- A row with the number of a line. -/
def numbered (sheet : Sheet) (number : Nat) : Row :=
  let number := (toString number).toList
  let number := List.replicate (sheet.digits - number.length) ' ' ++ number
  sheet.gutter.draw 0 (Row.ofChars .accent number)

/-- A line of the text behind its number, and the columns of it that are left out. -/
def codeRow (sheet : Sheet) (number : Nat) (shown : List Char) : Nat × Row :=
  let (gone, code) := sheet.window.cut shown
  (gone, (sheet.numbered number).draw sheet.textStart code)

/-- Draws a row over one of a list of rows. -/
def drawAt (rows : List Row) (index column : Nat) (ink : Row) : List Row :=
  rows.modify index fun row => row.draw column ink

/-- Draws a column of a bar over some of a list of rows. -/
def drawDown (rows : List Row) (first count column : Nat) (ink : Ink) : List Row :=
  (List.range' first count).foldl
    (fun rows index => drawAt rows index column (Row.of ink "|")) rows

/-- Draws bars over all of a list of rows. -/
def drawBars (sheet : Sheet) (bars : List Bar) (rows : List Row) : List Row :=
  bars.foldl (fun rows bar => drawDown rows 0 rows.length (sheet.barColumn bar.1) bar.2) rows

/-- A mark with its level, on a line of which some columns are left out. -/
structure Placed where
  /-- The columns of the line that are left out. -/
  gone : Nat
  /-- The level of the mark. -/
  level : Nat
  /-- The mark. -/
  mark : Mark

/-- Where a column of the text is drawn. -/
def columnOf (sheet : Sheet) (gone column : Nat) : Nat := sheet.textStart + column - gone

/-- Draws the line from a mark to the bar of its span. -/
def drawJoint (sheet : Sheet) (rows : List Row) (placed : Placed) : List Row :=
  match placed.mark.turn? with
  | none => rows
  | some depth =>
    let first := sheet.barColumn depth + 1
    let last := sheet.columnOf placed.gone placed.mark.start.column
    drawAt rows (placed.level + 1) first
      (Row.ofChars (sheet.inkOf placed.mark) (List.replicate (last - first) '_'))

/-- Draws the line from a mark down to its label, and the start or the end of a bar. -/
def drawStem (sheet : Sheet) (rows : List Row) (placed : Placed) : List Row :=
  let ink := sheet.inkOf placed.mark
  let rows :=
    if placed.level ≠ 0 ∧ (placed.mark.hasLabel ∨ placed.mark.takesSpace) then
      drawDown rows 1 (placed.level + 1)
        (sheet.columnOf placed.gone placed.mark.start.column) ink
    else rows
  match placed.mark.part with
  | .opening depth =>
    let below := placed.level + 2
    let rows := drawAt rows (placed.level + 1) (sheet.barColumn depth) (Row.of ink " ")
    drawDown rows below (rows.length - below) (sheet.barColumn depth) ink
  | .closing depth => drawDown rows 0 (placed.level + 2) (sheet.barColumn depth) ink
  | .whole | .passing _ => rows

/-- Draws the label of a mark. -/
def drawLabel (sheet : Sheet) (rows : List Row) (placed : Placed) : List Row :=
  match placed.mark.label? with
  | none => rows
  | some label =>
    let label := Row.of (sheet.inkOf placed.mark) label
    if placed.level = 0 then
      let stop := placed.mark.stop.column
      let column := (if stop = 0 then stop + 2 else stop + 1) - placed.gone
      drawAt rows 1 (sheet.textStart + column) label
    else
      drawAt rows (placed.level + 2) (sheet.textStart + (placed.mark.start.column - placed.gone)) label

/-- Draws the underline of a mark. -/
def drawLine (sheet : Sheet) (rows : List Row) (placed : Placed) : List Row :=
  let mark := placed.mark
  let line (column : Nat) (rows : List Row) : List Row :=
    drawAt rows 1 (sheet.columnOf placed.gone column)
      (Row.of (sheet.inkOf mark) (if mark.isPrimary then "^" else "-"))
  let rows := (List.range' mark.start.column mark.size).foldl (fun rows column => line column rows)
    rows
  if mark.takesSpace || (placed.level != 0 && mark.hasLabel) then line mark.start.column rows
  else rows

/-- Leaves out the middle of a row, if it is that long. -/
def cutMiddle (first last : Nat) (row : Row) : Row :=
  if first ≤ row.length && last ≤ row.length then row.take first ++ Window.dots ++ row.drop last
  else row

/-- Leaves out the middle of a mark that is longer than two screens, if it meets no other one. -/
def shorten (sheet : Sheet) (marks : List Mark) (rows : List Row) (mark : Mark) : List Row :=
  let room := sheet.window.room
  let meetings := marks.filter fun other => other.meets 0 mark
  if mark.part = .whole ∧ room * 2 < mark.size ∧ 10 < mark.size ∧ meetings.length ≤ 1 then
    let pad := max (room / 3) 5
    let cut := cutMiddle (mark.start.column + pad) (mark.stop.column - pad)
    (rows.modify 0 cut).modify 1 cut
  else rows

/-- The bars that start or end at marks. -/
def turns (sheet : Sheet) (marks : List Mark) : List Bar :=
  marks.filterMap fun mark => mark.turn?.map fun depth => (depth, sheet.inkOf mark)

/-- The line starts with the spans that it opens, and has no other marks. -/
def opensOnly (shown : List Char) (marks : List Mark) : Bool :=
  marks.all fun mark =>
    mark.isPassing || (mark.isOpening && (shown.take mark.start.column).all Text.isBlank)

/-- A line with its marks, and the bars that start or end on it. -/
def block (sheet : Sheet) (line : Line) (marks : List Mark) : List Row × List Bar :=
  let shown := line.shown
  let (gone, code) := sheet.codeRow line.number shown
  if opensOnly shown marks then
    let turns := sheet.turns marks
    (turns.foldl (fun rows bar => drawAt rows 0 (sheet.barColumn bar.1) (Row.of bar.2 "/")) [code],
      turns)
  else
    let levels := Mark.levels marks
    let deepest := (levels.map (·.1)).foldl max 0
    let count := if deepest = 0 then 1 else deepest + 2
    let onlyOpening := marks.all (·.isOpening)
    let count := if onlyOpening then max (count - 1) 1 else count
    let placed := levels.map fun (level, mark) =>
      Placed.mk gone (if onlyOpening then deepest - level else level) mark
    let rows := code :: List.replicate count sheet.gutter
    let rows := placed.foldl sheet.drawJoint rows
    let rows := placed.foldl sheet.drawStem rows
    let rows := placed.foldl sheet.drawLabel rows
    let drawn := placed.mergeSort fun left right => Mark.drawnBefore left.mark right.mark
    let rows := drawn.foldl sheet.drawLine rows
    let rows := (drawn.map (·.mark)).foldl (sheet.shorten marks) rows
    (rows, sheet.turns (drawn.map (·.mark)))

/-- The unmarked lines between two marked ones.  A single one is shown, more of them are only
hinted at. -/
def between (sheet : Sheet) (lines : List Line) (upper lower : Nat) : List Row :=
  if upper + 2 = lower then
    (lines.filter (·.number = upper + 1)).map fun line =>
      (sheet.codeRow line.number line.shown).2
  else if upper + 2 < lower then [Window.dots]
  else []

/-- The bars that go on below a line, and the ones that begin there. -/
def follow (bars : List Bar × List Bar) (turn : Bar) : List Bar × List Bar :=
  if bars.1.any (·.1 = turn.1) then (bars.1.filter (·.1 ≠ turn.1), bars.2)
  else (bars.1, turn :: bars.2.filter (·.1 ≠ turn.1))

/-- The marked lines with their marks, and with the bars that come from above. -/
def body (sheet : Sheet) (lines : List Line) (bars : List Bar) :
    List (Line × List Mark) → List Row
  | [] => []
  | (line, marks) :: rest =>
    let (rows, turns) := sheet.block line marks
    let (kept, begun) := turns.foldl follow (bars, [])
    let skipped := match rest with
      | [] => []
      | (next, _) :: _ => sheet.between lines line.number next.number
    let opened := sheet.turns (marks.filter (·.isOpening))
    sheet.drawBars kept rows ++ sheet.drawBars (kept ++ opened) skipped ++
      sheet.body lines (kept ++ begun) rest

end Sheet

end WorkItemQuery
