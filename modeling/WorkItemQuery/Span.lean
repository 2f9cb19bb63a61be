/-!
# Spans

A span is a stretch of a text between two byte offsets, the first not behind the second.  Offsets
are numbers of 32 bits wherever they are written down.
-/

namespace WorkItemQuery

/-- A stretch of text, from one byte offset up to another. -/
structure Span where
  /-- The offset of the first byte. -/
  start : Nat
  /-- The offset behind the last byte. -/
  stop : Nat
  /-- A span never ends before it starts. -/
  start_le_stop : start ≤ stop := by omega
deriving DecidableEq, Repr

namespace Span

/-- The span between two offsets, if they are in order. -/
def between? (start stop : Nat) : Option Span :=
  if h : start ≤ stop then some ⟨start, stop, h⟩ else none

/-- The span of a number of bytes from an offset on. -/
def sized (start size : Nat) : Span := ⟨start, start + size, Nat.le_add_right start size⟩

/-- The span of no bytes at an offset. -/
def empty (offset : Nat) : Span := ⟨offset, offset, Nat.le_refl offset⟩

/-- The least span that holds two spans. -/
def cover (left right : Span) : Span :=
  ⟨min left.start right.start, max left.stop right.stop,
    Nat.le_trans (Nat.min_le_left _ _)
      (Nat.le_trans left.start_le_stop (Nat.le_max_left _ _))⟩

/-- The least number that does not fit into 32 bits. -/
def bound : Nat := 4294967296

/-- Both ends of the span fit into 32 bits. -/
def fits (span : Span) : Bool := span.stop < bound

/-- The span between two offsets as text. -/
def render (span : Span) : String := toString span.start ++ ".." ++ toString span.stop

theorem start_cover_le_left (left right : Span) : (cover left right).start ≤ left.start :=
  Nat.min_le_left _ _

theorem left_le_stop_cover (left right : Span) : left.stop ≤ (cover left right).stop :=
  Nat.le_max_left _ _

end Span
end WorkItemQuery
