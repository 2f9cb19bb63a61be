import WorkItemQuery.Diagnostic.Band
import WorkItemQuery.Diagnostic.Sheet

/-!
# Drawings of diagnostics

A diagnostic is drawn under its message: the lines of the text that it is about, with the place of
the problem and the places of its notes underlined, and the notes beside or below their underlines.
Hints come last.
-/

namespace WorkItemQuery

open Excerpt (Line Place)

/-- A span that can be seen: one byte at least, as far as the text has one. -/
def Span.widened (source : String) (span : Span) : Nat × Nat :=
  if span.start = span.stop then (span.start, min (span.start + 1) source.utf8ByteSize)
  else (span.start, span.stop)

namespace Snippet

/-- A stretch of text that is underlined. -/
structure Stretch where
  /-- Where it starts. -/
  start : Place
  /-- Where it stops. -/
  stop : Place
  /-- What is written beside or below it. -/
  label? : Option String
  /-- It marks the problem itself. -/
  isPrimary : Bool
deriving DecidableEq, Repr

namespace Stretch

/-- The stretch of a span.  There is none if the span ends more than one byte behind the text or
cuts a character. -/
def of? (source : String) (lines : List Line) (label? : Option String) (isPrimary : Bool)
    (span : Span) : Option Stretch := do
  let (start, stop) := span.widened source
  if source.utf8ByteSize + 1 < stop then none
  else
    let (first, last) ← Excerpt.extent? lines start stop
    some ⟨first, last, label?, isPrimary⟩

/-- The stretch lies on one line. -/
def isLocal (stretch : Stretch) : Bool := stretch.start.line == stretch.stop.line

/-- The mark of a stretch on one line, which is one column wide at least. -/
def mark (stretch : Stretch) : Nat × Mark :=
  let start := stretch.start.toSpot
  let stop := stretch.stop.toSpot
  let stop := if stop.column = start.column then ⟨stop.column + 1, stop.letters⟩ else stop
  (stretch.start.line, ⟨start, stop, stretch.label?, stretch.isPrimary, .whole⟩)

/-- The band of a stretch over several lines. -/
def band (stretch : Stretch) : Band :=
  { start := stretch.start, stop := stretch.stop, label? := stretch.label?
    isPrimary := stretch.isPrimary }

end Stretch

/-- The lines that have marks, with their marks. -/
def marked (lines : List Line) (marks : List (Nat × Mark)) : List (Line × List Mark) :=
  (lines.map fun line => (line, (marks.filter (·.1 = line.number)).map (·.2))).filter
    fun entry => !entry.2.isEmpty

/-- The place of the problem in words. -/
def placeOf (path : String) (marked : List (Line × List Mark)) : String :=
  match marked.find? fun entry => entry.2.any (·.isPrimary) with
  | none => path
  | some (line, marks) =>
    let letters := ((marks.filter (·.isPrimary)).map (·.start.letters)).min?.getD 0
    path ++ ":" ++ toString line.number ++ ":" ++ toString (letters + 1)

/-- The rows of a text behind its title.  The lines of the text stand below each other. -/
def titled (title : Row) (ink : Ink) (text : List Char) : List Row :=
  match text.splitOn '\n' with
  | [] => [title]
  | first :: rest =>
    (title ++ Row.ofChars ink first) ::
      rest.map fun line => Row.blanks title.length ++ Row.ofChars ink line

/-- The title of a diagnostic. -/
def titleRows (diagnostic : Diagnostic) : List Row :=
  let severity := diagnostic.severity
  let shown := diagnostic.message.toList.flatMap fun char =>
    if char = '\n' then [char] else Text.shownAs char
  titled (Row.of (severity.ink) severity.render ++ Row.of .strong ": ") .strong shown

/-- A hint. -/
def hintRows (digits : Nat) (hint : String) : List Row :=
  titled (Row.blanks (digits + 1) ++ Row.of .accent "= " ++ Row.of .strong "help" ++
    Row.of .plain ": ") .plain hint.toList

/-- A diagnostic as rows, with the path of the text if it has one. -/
def rows? (source : String) (path? : Option String) (diagnostic : Diagnostic) :
    Option (List Row) := do
  let lines := Excerpt.lines source
  let primary ← Stretch.of? source lines none true diagnostic.span
  let notes ← diagnostic.related.mapM fun note =>
    Stretch.of? source lines (some note.message) false note.span
  let stretches := primary :: notes
  let bands := Band.settle ((stretches.filter (!·.isLocal)).map (·.band))
  let marked := marked lines
    ((stretches.filter (·.isLocal)).map (·.mark) ++ bands.flatMap (·.marks lines))
  let stop := (stretches.map (·.stop.offset)).foldl max 0
  let digits := (toString (max 1 (lines.filter (·.start < stop)).length)).length
  let depth := (bands.map (·.depth)).foldl max 0
  let sheet : Sheet :=
    { severity := diagnostic.severity, digits, depth
      window := Window.fit (Sheet.screenWidth - Sheet.textColumn digits depth) (marked.map (·.1))
        (marked.flatMap (·.2)) }
  let place := match path? with
    | none => []
    | some path =>
      [Row.blanks digits ++ Row.of .accent "--> " ++ Row.of .plain (placeOf path marked)]
  let hints := diagnostic.hints.flatMap (hintRows digits)
  return titleRows diagnostic ++ place ++ [sheet.gutter] ++ sheet.body lines [] marked ++
    (if hints.isEmpty then [] else sheet.gutter :: hints)

end Snippet

/-- A diagnostic as a drawing.  There is none if one of its places is not in the text. -/
def Diagnostic.draw? (source : String) (path? : Option String) (colored : Bool)
    (diagnostic : Diagnostic) : Option String :=
  (Snippet.rows? source path? diagnostic).map fun rows =>
    "\n".intercalate (rows.map (Row.render colored))

/-- Several diagnostics as drawings, one below the other. -/
def Diagnostic.drawAll? (source : String) (path? : Option String) (colored : Bool)
    (diagnostics : List Diagnostic) : Option String :=
  (diagnostics.mapM (Diagnostic.draw? source path? colored)).map "\n".intercalate

end WorkItemQuery
