import Mathlib.Data.List.SplitBy
import Mathlib.Order.MinMax
import WorkItemQuery.Diagnostic.Snippet
import WorkItemQuery.Proofs.Steps
import WorkItemQuery.Proofs.Token.Tiling

/-!
# Spans that can be seen

A span can be seen if both of its ends lie between characters of the text, and still do so when it is
made wider.  Then its ends have places on the lines of the text.  So a diagnostic on such spans has a
drawing, which is never empty.
-/

namespace WorkItemQuery

open Lexer (bytes bytes_append bytes_cons bytes_toList)

/-! ## Spans -/

theorem isValid_iff {source : String} {offset : Nat} :
    (⟨offset⟩ : String.Pos.Raw).IsValid source ↔
      ∃ front back, source.toList = front ++ back ∧ offset = bytes front := by
  rw [String.Pos.Raw.isValid_iff_exists_append]
  constructor
  · rintro ⟨front, back, rfl, pos_eq⟩
    refine ⟨front.toList, back.toList, String.toList_append, ?_⟩
    rw [bytes_toList]
    exact congrArg String.Pos.Raw.byteIdx pos_eq
  · rintro ⟨front, back, source_eq, rfl⟩
    refine ⟨.ofList front, .ofList back, ?_, rfl⟩
    rw [← String.toList_inj, source_eq]
    simp

/-- Two offsets cut a stretch out of a text: they are in order, and neither lies behind the text or
inside a character. -/
structure Cuts (source : String) (start stop : Nat) : Prop where
  /-- They are in order. -/
  start_le_stop : start ≤ stop
  /-- They lie within the text. -/
  stop_le_size : stop ≤ source.utf8ByteSize
  /-- The first lies between characters. -/
  start_isValid : (⟨start⟩ : String.Pos.Raw).IsValid source
  /-- The second lies between characters. -/
  stop_isValid : (⟨stop⟩ : String.Pos.Raw).IsValid source

namespace Span

/-- The span can be seen: it cuts a stretch out of the text, and so it does when it is made wider.
Then it covers some text, or stands at the end. -/
structure IsVisible (source : String) (span : Span) : Prop where
  /-- It cuts a stretch out of the text. -/
  cuts : Cuts source span.start span.stop
  /-- It does so when it is made wider. -/
  widened_cuts : Cuts source (span.widened source).1 (span.widened source).2
  /-- It covers some text, or stands at the end. -/
  covers : (span.widened source).1 < (span.widened source).2 ∨
    (span.widened source).1 = source.utf8ByteSize

variable {source : String} {span left right : Span}

theorem eq_of_ends (start_eq : left.start = right.start) (stop_eq : left.stop = right.stop) :
    left = right := by
  cases left
  cases right
  cases start_eq
  cases stop_eq
  rfl

/-- A span can be seen if both of its ends lie between characters, unless it covers nothing. -/
theorem isVisible_of_isValid (start_isValid : (⟨span.start⟩ : String.Pos.Raw).IsValid source)
    (stop_isValid : (⟨span.stop⟩ : String.Pos.Raw).IsValid source)
    (of_empty : span.start = span.stop → span.IsVisible source) : span.IsVisible source := by
  obtain empty | lt := Nat.eq_or_lt_of_le span.start_le_stop
  · exact of_empty empty
  · have cuts : Cuts source span.start span.stop :=
      ⟨span.start_le_stop, stop_isValid.le_rawEndPos, start_isValid, stop_isValid⟩
    have widened_eq : span.widened source = (span.start, span.stop) := if_neg (Nat.ne_of_lt lt)
    refine ⟨cuts, ?_, .inl ?_⟩ <;> rw [widened_eq]
    · exact cuts
    · exact lt

/-- A span of no bytes can be seen where only characters of one byte follow. -/
theorem isVisible_empty {front gap : List Char} (source_eq : source.toList = front ++ gap)
    (small : ∀ char ∈ gap, char.utf8Size = 1) : (Span.empty (bytes front)).IsVisible source := by
  have size_eq : source.utf8ByteSize = bytes front + bytes gap := by
    rw [← bytes_toList, source_eq, bytes_append]
  have front_isValid : (⟨bytes front⟩ : String.Pos.Raw).IsValid source :=
    isValid_iff.2 ⟨front, gap, source_eq, rfl⟩
  obtain ⟨stop, widened_eq, stop_isValid, le_stop, covers⟩ : ∃ stop,
      (Span.empty (bytes front)).widened source = (bytes front, stop) ∧
        (⟨stop⟩ : String.Pos.Raw).IsValid source ∧ bytes front ≤ stop ∧
        (bytes front < stop ∨ bytes front = source.utf8ByteSize) := by
    have widened_eq : (Span.empty (bytes front)).widened source =
        (bytes front, min (bytes front + 1) source.utf8ByteSize) := if_pos rfl
    rw [widened_eq]
    cases gap with
    | nil =>
        have at_end : source.utf8ByteSize = bytes front := size_eq
        exact ⟨bytes front, by rw [at_end, Nat.min_eq_right (Nat.le_succ _)], front_isValid,
          Nat.le_refl _, .inr at_end.symm⟩
    | cons char gap =>
        rw [bytes_cons, small char (.head _)] at size_eq
        have next_isValid : (⟨bytes front + 1⟩ : String.Pos.Raw).IsValid source := by
          refine isValid_iff.2 ⟨front ++ [char], gap, by simp [source_eq], ?_⟩
          rw [bytes_append, bytes_cons, small char (.head _)]
          rfl
        refine ⟨bytes front + 1, ?_, next_isValid, Nat.le_succ _, .inl (Nat.lt_succ_self _)⟩
        exact congrArg (bytes front, ·) (Nat.min_eq_left (by omega))
  refine ⟨⟨Nat.le_refl _, front_isValid.le_rawEndPos, front_isValid, front_isValid⟩, ?_, ?_⟩ <;>
    rw [widened_eq]
  · exact ⟨le_stop, stop_isValid.le_rawEndPos, front_isValid, stop_isValid⟩
  · exact covers

/-- The least span that holds two spans that can be seen. -/
theorem IsVisible.cover (left_visible : left.IsVisible source)
    (right_visible : right.IsVisible source) : (left.cover right).IsVisible source := by
  refine isVisible_of_isValid ?_ ?_ fun empty => ?_
  · obtain start_eq | start_eq := min_choice left.start right.start
    · simpa only [Span.cover, start_eq] using left_visible.cuts.start_isValid
    · simpa only [Span.cover, start_eq] using right_visible.cuts.start_isValid
  · obtain stop_eq | stop_eq := max_choice left.stop right.stop
    · simpa only [Span.cover, stop_eq] using left_visible.cuts.stop_isValid
    · simpa only [Span.cover, stop_eq] using right_visible.cuts.stop_isValid
  · -- A cover of no bytes is the first span itself.
    have start_le := start_cover_le_left left right
    have le_stop := left_le_stop_cover left right
    have le := left.start_le_stop
    have cover_eq : left.cover right = left := eq_of_ends (by omega) (by omega)
    rwa [cover_eq]

/-- The span from the start of one that can be seen to an offset that can be seen. -/
theorem IsVisible.between (left_visible : left.IsVisible source) {stop : Nat}
    (stop_visible : (Span.empty stop).IsVisible source)
    (between_eq : between? left.start stop = some span) : span.IsVisible source := by
  rw [between?] at between_eq
  split at between_eq
  · cases between_eq
    refine isVisible_of_isValid left_visible.cuts.start_isValid stop_visible.cuts.stop_isValid
      fun start_eq => ?_
    rwa [show Span.mk left.start stop _ = Span.empty stop from eq_of_ends start_eq rfl]
  · cases between_eq

end Span

/-! ## Places on lines -/

namespace Excerpt

theorem byteCount_eq_bytes (text : List Char) : byteCount text = bytes text := by
  induction text with
  | nil => rfl
  | cons char text ih =>
      rw [bytes_cons, ← ih, byteCount, byteCount, ← List.sum_eq_foldl, ← List.sum_eq_foldl,
        List.map_cons, List.sum_cons]

/-- The line comes somewhere in the text, which begins at an offset, and starts where it says. -/
def IsLineOf (offset : Nat) (text : List Char) (line : Line) : Prop :=
  ∃ before behind, text = before ++ (line.text ++ behind) ∧ line.start = offset + bytes before

theorem IsLineOf.append {offset : Nat} {front text : List Char} {line : Line}
    (is_line : IsLineOf (offset + bytes front) text line) : IsLineOf offset (front ++ text) line := by
  obtain ⟨before, behind, rfl, start_eq⟩ := is_line
  refine ⟨front ++ before, behind, by rw [List.append_assoc], ?_⟩
  rw [start_eq, bytes_append, Nat.add_assoc]

/-- A line with its line break comes before the lines behind it. -/
theorem isLineOf_placeLines {number offset size : Nat} {content lineBreak rest : List Char}
    {behind : List (List Char × Nat)} (size_eq : bytes lineBreak = size)
    (rest_lines : ∀ number, ∀ line ∈ placeLines number (offset + bytes (content ++ lineBreak)) behind,
      IsLineOf (offset + bytes (content ++ lineBreak)) rest line) :
    ∀ line ∈ placeLines number offset ((content, size) :: behind),
      IsLineOf offset (content ++ lineBreak ++ rest) line := by
  have stop_eq : offset + byteCount content + size = offset + bytes (content ++ lineBreak) := by
    rw [byteCount_eq_bytes, bytes_append, size_eq, Nat.add_assoc]
  rw [placeLines, stop_eq]
  refine List.forall_mem_cons.2 ⟨⟨[], lineBreak ++ rest, by simp, rfl⟩, fun line mem => ?_⟩
  exact (rest_lines _ line mem).append

/-- The lines that a text is split into come in it where they are placed. -/
theorem isLineOf_splitFrom (read text : List Char) (number offset : Nat) :
    ∀ line ∈ placeLines number offset (splitFrom read text),
      IsLineOf offset (read.reverse ++ text) line := by
  fun_induction splitFrom read text generalizing number offset with
  | case1 => nofun
  | case2 read =>
      have one_line : ∀ line ∈ placeLines number offset [(read.reverse, 0)],
          IsLineOf offset (read.reverse ++ [] ++ []) line := isLineOf_placeLines rfl nofun
      simpa using one_line
  | case3 text read ih =>
      have breaks : ∀ line ∈ placeLines number offset ((read.reverse, 2) :: splitFrom [] text),
          IsLineOf offset (read.reverse ++ ['\r', '\n'] ++ text) line :=
        isLineOf_placeLines rfl fun number => ih number _
      simpa using breaks
  | case4 text read _ ih =>
      have breaks : ∀ line ∈ placeLines number offset ((read.reverse, 1) :: splitFrom [] text),
          IsLineOf offset (read.reverse ++ ['\n'] ++ text) line :=
        isLineOf_placeLines rfl fun number => ih number _
      simpa using breaks
  | case5 read char text not_break ih => simpa using ih number offset

/-- Every line of a text comes in it where it is placed, and so does the one of an offset. -/
theorem isLineOf_lineAt (source : String) (offset : Nat) :
    IsLineOf 0 source.toList (lineAt (lines source) offset) := by
  have empty_isLine : IsLineOf 0 source.toList emptyLine := ⟨[], source.toList, rfl, rfl⟩
  have all_lines : ∀ line ∈ lines source, IsLineOf 0 source.toList line := by
    have split_lines := isLineOf_splitFrom [] source.toList 1 0
    rw [List.reverse_nil, List.nil_append] at split_lines
    rw [lines]
    split
    · exact List.forall_mem_singleton.2 empty_isLine
    · exact split_lines
  rw [lineAt]
  split
  · rename_i line found
    exact all_lines line (List.mem_of_find?_eq_some found)
  · cases last_eq : (lines source).getLast? with
    | none => exact empty_isLine
    | some last => exact all_lines last (List.mem_of_getLast? last_eq)

theorem takeBytes?_zero (text : List Char) : takeBytes? 0 text = some [] := by
  rw [takeBytes?]

/-- No character is cut by the end of a start of the text. -/
theorem exists_takeBytes? {text behind front back : List Char}
    (text_eq : text ++ behind = front ++ back) :
    ∃ before, takeBytes? (bytes front) text = some before := by
  induction text generalizing front with
  | nil =>
      refine ⟨[], ?_⟩
      cases bytes front <;> rfl
  | cons char text ih =>
      cases front with
      | nil => exact ⟨[], takeBytes?_zero _⟩
      | cons first front =>
          obtain ⟨rfl, behind_eq⟩ := List.cons.inj text_eq
          obtain ⟨before, before_eq⟩ := ih behind_eq
          have size_le : char.utf8Size ≤ bytes (char :: front) := by
            rw [bytes_cons]
            exact Nat.le_add_right _ _
          have rest_eq : bytes (char :: front) - char.utf8Size = bytes front := by
            rw [bytes_cons, Nat.add_sub_cancel_left]
          refine ⟨char :: before, ?_⟩
          rw [takeBytes?, if_pos size_le, rest_eq, before_eq]
          · rfl
          · exact fun none => Nat.not_lt_of_le size_le (by rw [none]; exact char.utf8Size_pos)

/-- An offset between characters has a place. -/
theorem exists_placeAt? {source : String} {offset : Nat}
    (is_valid : (⟨offset⟩ : String.Pos.Raw).IsValid source) :
    ∃ place, placeAt? (lines source) offset = some place := by
  obtain ⟨front, back, source_eq, rfl⟩ := isValid_iff.1 is_valid
  obtain ⟨before, behind, line_eq, start_eq⟩ := isLineOf_lineAt source (bytes front)
  generalize line_def : lineAt (lines source) (bytes front) = line at line_eq start_eq
  obtain ⟨taken, taken_eq⟩ : ∃ taken, takeBytes? (bytes front - line.start) line.text = some taken := by
    rw [start_eq, Nat.zero_add]
    rw [source_eq] at line_eq
    obtain ⟨more, rfl⟩ | ⟨more, rfl⟩ := List.prefix_or_prefix_of_prefix
      (List.prefix_append before _) (line_eq ▸ List.prefix_append front back)
    · rw [List.append_assoc, List.append_cancel_left_eq] at line_eq
      rw [bytes_append, Nat.add_sub_cancel_left]
      exact exists_takeBytes? line_eq.symm
    · rw [bytes_append, Nat.sub_eq_zero_of_le (Nat.le_add_right _ _)]
      exact ⟨[], takeBytes?_zero _⟩
  exact ⟨_, by rw [placeAt?, line_def, taken_eq]; rfl⟩

theorem exists_extent? {source : String} {start stop : Nat} (cuts : Cuts source start stop) :
    ∃ extent, extent? (lines source) start stop = some extent := by
  obtain ⟨place, place_eq⟩ := exists_placeAt? cuts.start_isValid
  obtain ⟨first, first_eq⟩ : ∃ first, startAt? (lines source) start = some first := by
    rw [startAt?, place_eq]
    exact ⟨_, rfl⟩
  obtain ⟨last, last_eq⟩ := exists_placeAt? cuts.stop_isValid
  rw [extent?, first_eq, last_eq]
  simp only [Option.bind_eq_bind, Option.bind_some]
  split
  · exact ⟨_, rfl⟩
  · split <;> exact ⟨_, rfl⟩

end Excerpt

/-! ## Drawings -/

namespace Snippet

theorem exists_stretch {source : String} {span : Span} (visible : span.IsVisible source)
    (label? : Option String) (isPrimary : Bool) :
    ∃ stretch, Stretch.of? source (Excerpt.lines source) label? isPrimary span = some stretch := by
  obtain ⟨extent, extent_eq⟩ := Excerpt.exists_extent? visible.widened_cuts
  have within : ¬ source.utf8ByteSize + 1 < (span.widened source).2 :=
    Nat.not_lt_of_le (Nat.le_succ_of_le visible.widened_cuts.stop_le_size)
  refine ⟨⟨extent.1, extent.2, label?, isPrimary⟩, ?_⟩
  rw [Stretch.of?]
  simp only [if_neg within, extent_eq]
  rfl

end Snippet

/-- The spans of a diagnostic and of its notes can be seen. -/
structure Diagnostic.IsVisible (source : String) (diagnostic : Diagnostic) : Prop where
  /-- The place of the problem can be seen. -/
  span : diagnostic.span.IsVisible source
  /-- The places of the notes can be seen. -/
  notes : ∀ note ∈ diagnostic.related, note.span.IsVisible source

namespace Snippet

variable {source : String} {diagnostic : Diagnostic}

/-- A title stands in the first row of a text. -/
theorem exists_head_titled {title : Row} (not_nil : title ≠ []) (ink : Ink) (text : List Char) :
    ∃ first rest, titled title ink text = first :: rest ∧ first ≠ [] := by
  rw [titled]
  split
  · exact ⟨title, [], rfl, not_nil⟩
  · exact ⟨_, _, rfl, List.append_ne_nil_of_left_ne_nil not_nil _⟩

/-- The drawing of a diagnostic begins with its title. -/
theorem exists_rows (visible : diagnostic.IsVisible source) (path? : Option String) :
    ∃ rest, rows? source path? diagnostic = some (titleRows diagnostic ++ rest) := by
  obtain ⟨primary, primary_eq⟩ := exists_stretch visible.span none true
  obtain ⟨notes, notes_eq, -⟩ := exists_mapM_eq fun note mem =>
    exists_stretch (visible.notes note mem) (some note.message) false
  rw [rows?, primary_eq, notes_eq]
  simp only [Option.bind_eq_bind, Option.bind_some, List.append_assoc]
  exact ⟨_, rfl⟩

end Snippet

/-! ## Text of a drawing -/

theorem intercalate_ne_empty {separator first : String} (not_empty : first ≠ "")
    {rest : List String} : separator.intercalate (first :: rest) ≠ "" := by
  cases rest with
  | nil => simpa using not_empty
  | cons second rest => simp [String.intercalate_cons_cons, not_empty]

namespace Row

/-- A row with a character is not drawn as nothing. -/
theorem render_ne_empty (colored : Bool) {row : Row} (not_nil : row ≠ []) :
    row.render colored ≠ "" := by
  have chars_ne : ∀ {row : Row}, row ≠ [] → chars row ≠ "" := fun not_nil => by
    simpa [chars] using not_nil
  have run_ne : ∀ {run : Row}, run ≠ [] → writeRun run ≠ "" := by
    intro run not_nil
    obtain ⟨first, rest, rfl⟩ := List.exists_cons_of_ne_nil not_nil
    rw [writeRun, Ink.write]
    split
    · exact chars_ne not_nil
    · simp
  rw [render]
  split
  · have runs_ne : (row.splitBy fun left right => left.2 == right.2) ≠ [] :=
      mt List.splitBy_eq_nil.1 not_nil
    have nil_notMem := List.nil_notMem_splitBy (fun left right => left.2 == right.2) row
    obtain ⟨run, runs, runs_eq⟩ := List.exists_cons_of_ne_nil runs_ne
    rw [runs_eq] at nil_notMem ⊢
    rw [List.map_cons, String.join_cons]
    have first_ne := run_ne (List.ne_of_not_mem_cons nil_notMem).symm
    simpa using fun first_eq => absurd first_eq first_ne
  · exact chars_ne not_nil

end Row

namespace Diagnostic

variable {source : String}

/-- A diagnostic that can be seen has a drawing, which is not empty. -/
theorem IsVisible.exists_drawing {diagnostic : Diagnostic} (visible : diagnostic.IsVisible source)
    (path? : Option String) (colored : Bool) :
    ∃ drawing, diagnostic.draw? source path? colored = some drawing ∧ drawing ≠ "" := by
  obtain ⟨rest, rows_eq⟩ := Snippet.exists_rows visible path?
  obtain ⟨first, behind, title_eq, not_nil⟩ : ∃ first behind,
      Snippet.titleRows diagnostic = first :: behind ∧ first ≠ [] := by
    refine Snippet.exists_head_titled ?_ _ _
    simp [Row.of, Row.ofChars]
  rw [draw?, rows_eq, title_eq]
  exact ⟨_, rfl, intercalate_ne_empty (Row.render_ne_empty colored not_nil)⟩

/-- Diagnostics that can be seen are drawn one by one, and not as nothing if there are any. -/
theorem exists_drawings {diagnostics : List Diagnostic}
    (visible : ∀ diagnostic ∈ diagnostics, diagnostic.IsVisible source) (path? : Option String)
    (colored : Bool) :
    ∃ drawings, drawAll? source path? colored diagnostics = some ("\n".intercalate drawings) ∧
      List.Forall₂ (fun diagnostic drawing => diagnostic.draw? source path? colored = some drawing)
        diagnostics drawings ∧
      (diagnostics ≠ [] → "\n".intercalate drawings ≠ "") := by
  obtain ⟨drawings, drawings_eq, all_drawn⟩ := exists_mapM_eq fun diagnostic mem =>
    let ⟨drawing, drawing_eq, _⟩ := (visible diagnostic mem).exists_drawing path? colored
    ⟨drawing, drawing_eq⟩
  refine ⟨drawings, by rw [drawAll?, drawings_eq]; rfl, all_drawn, fun not_nil => ?_⟩
  cases all_drawn with
  | nil => exact absurd rfl not_nil
  | cons first_eq =>
      obtain ⟨drawing, drawing_eq, not_empty⟩ :=
        (visible _ (.head _)).exists_drawing path? colored
      rw [drawing_eq] at first_eq
      rw [← Option.some.inj first_eq]
      exact intercalate_ne_empty not_empty

end Diagnostic
end WorkItemQuery
