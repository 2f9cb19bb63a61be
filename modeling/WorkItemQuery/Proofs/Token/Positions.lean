import Mathlib.Data.List.DropRight
import Mathlib.Data.Prod.Lex
import WorkItemQuery.Proofs.Token.Blanks
import WorkItemQuery.Proofs.Token.Case
import WorkItemQuery.Proofs.Token.Tiling

/-!
# Lines and columns

A token stands on the line that the line feeds before it count, in the column that the characters
behind the last of them count.  Only words of several parts go on over the end of a line.  The
tokens of a text come one behind another in the order of their lines and columns.
-/

namespace WorkItemQuery

/-! ## Offsets in a text -/

/-- The characters of a text that begin before an offset. -/
def charsBefore : Nat → List Char → List Char
  | 0, _ => []
  | _ + 1, [] => []
  | offset + 1, char :: text => char :: charsBefore (offset + 1 - char.utf8Size) text

/-- The line of an offset: one more than the line feeds before it. -/
def lineAt (source : String) (offset : Nat) : Nat :=
  (charsBefore offset source.toList).count '\n' + 1

/-- The column of an offset: one more than the characters between the last line feed before it, or
the start of the text, and the offset. -/
def columnAt (source : String) (offset : Nat) : Nat :=
  ((charsBefore offset source.toList).rtakeWhile (· != '\n')).length + 1

/-- The line and the column of an offset, in the order of reading. -/
def positionAt (source : String) (offset : Nat) : Lex (Nat × Nat) :=
  toLex (lineAt source offset, columnAt source offset)

/-- The line and the column of a piece of text, in the order of reading. -/
def Lexeme.position (lexeme : Lexeme) : Lex (Nat × Nat) := toLex (lexeme.line, lexeme.column)

namespace Lexer

variable {source : String} {front back text : List Char}

/-- The line and the column of a place, in the order of reading. -/
def Place.position (place : Place) : Lex (Nat × Nat) := toLex (place.line, place.column)

theorem charsBefore_append (front back : List Char) :
    charsBefore (bytes front) (front ++ back) = front := by
  induction front with
  | nil => cases back <;> rfl
  | cons char front ih =>
      obtain ⟨shorter, size_eq⟩ := Nat.exists_eq_succ_of_ne_zero
        (Nat.ne_of_gt (bytes_pos (List.cons_ne_nil char front)))
      rw [size_eq, List.cons_append, charsBefore, ← Nat.succ_eq_add_one, ← size_eq, bytes_cons,
        Nat.add_sub_cancel_left, ih]

theorem lineAt_of_append (source_eq : source.toList = front ++ back) :
    lineAt source (bytes front) = front.count '\n' + 1 := by
  rw [lineAt, source_eq, charsBefore_append]

theorem columnAt_of_append (source_eq : source.toList = front ++ back) :
    columnAt source (bytes front) = (front.rtakeWhile (· != '\n')).length + 1 := by
  rw [columnAt, source_eq, charsBefore_append]

theorem afterAll_append (place : Place) (front back : List Char) :
    place.afterAll (front ++ back) = (place.afterAll front).afterAll back := List.foldl_append

/-- The place behind a text counts its line feeds, the characters behind the last of them, and its
bytes. -/
theorem afterAll_eq (front : List Char) :
    Place.afterAll {} front =
      ⟨front.count '\n' + 1, (front.rtakeWhile (· != '\n')).length + 1, bytes front⟩ := by
  induction front using List.reverseRecOn with
  | nil => rfl
  | append_singleton front char ih =>
      have bytes_eq : bytes (front ++ [char]) = bytes front + char.utf8Size := by
        rw [bytes_append, bytes_cons]
        rfl
      rw [afterAll_append, ih, Place.afterAll, List.foldl_cons, List.foldl_nil, Place.after,
        bytes_eq, List.rtakeWhile_concat, List.count_append]
      split
      · rename_i is_feed
        simp [is_feed]
      · rename_i not_feed
        simp [not_feed]

theorem position_afterAll (source_eq : source.toList = front ++ back) :
    (Place.afterAll {} front).position = positionAt source (bytes front) := by
  rw [afterAll_eq, positionAt, lineAt_of_append source_eq, columnAt_of_append source_eq]
  rfl

/-- On one line the columns count the characters. -/
theorem afterAll_of_one_line (one_line : '\n' ∉ text) (place : Place) :
    (place.afterAll text).column = place.column + text.length := by
  induction text generalizing place with
  | nil => rfl
  | cons char text ih =>
      obtain ⟨not_feed, rest_line⟩ := not_or.1 (mt List.mem_cons.2 one_line)
      have next_eq : (place.after char).column = place.column + 1 := by
        rw [Place.after, if_neg (Ne.symm not_feed)]
      rw [Place.afterAll, List.foldl_cons, ← Place.afterAll, ih rest_line, next_eq,
        List.length_cons, Nat.add_assoc, Nat.add_comm 1]

/-! ## The order of reading -/

theorem position_lt_after (place : Place) (char : Char) :
    place.position < (place.after char).position := by
  rw [Place.position, Place.position, Prod.Lex.toLex_lt_toLex, Place.after]
  split
  · exact .inl (Nat.lt_succ_self _)
  · exact .inr ⟨rfl, Nat.lt_succ_self _⟩

theorem position_le_afterAll (place : Place) (text : List Char) :
    place.position ≤ (place.afterAll text).position := by
  induction text generalizing place with
  | nil => exact le_refl _
  | cons char text ih => exact (position_lt_after place char).le.trans (ih (place.after char))

theorem position_lt_afterAll (place : Place) (not_nil : text ≠ []) :
    place.position < (place.afterAll text).position := by
  obtain ⟨char, text, rfl⟩ := List.exists_cons_of_ne_nil not_nil
  exact (position_lt_after place char).trans_le (position_le_afterAll (place.after char) text)

/-- Of two fronts of a text the one with more bytes goes on from the other. -/
theorem exists_more_of_bytes_le {front' back' : List Char}
    (same : front ++ back = front' ++ back') (le : bytes front ≤ bytes front') :
    ∃ more, front' = front ++ more := by
  obtain ⟨more, front_eq, -⟩ | ⟨more, front_eq, -⟩ := List.append_eq_append_iff.1 same
  · exact ⟨more, front_eq⟩
  · cases more with
    | nil => exact ⟨[], by rw [front_eq, List.append_nil, List.append_nil]⟩
    | cons char more =>
        have pos := bytes_pos (List.cons_ne_nil char more)
        rw [front_eq, bytes_append] at le
        omega

/-! ## Line feeds in tokens -/

theorem kind_of_uses_newline : ∀ rule ∈ Rule.all, rule.pattern.uses '\n' = true →
    rule.kind ∈ spacedWords ∨ rule.kind = .newline := by
  decide

/-- What may begin a text with a line feed is a token or a blank by itself. -/
theorem exists_rule_of_newline {rule : Rule} (mem : rule ∈ Rule.all) {char : Char}
    (accepts : rule.pattern.Matches (char :: text)) (has_newline : '\n' ∈ char :: text) :
    ∃ other ∈ Rule.all, other.pattern.Matches [char] := by
  obtain spaced | is_newline :=
    kind_of_uses_newline rule mem (Pattern.uses_of_matches accepts has_newline)
  · have is_start := isNameStart_of_spaced mem spaced accepts
    exact ⟨_, Rule.identifier_mem, .inr ⟨[char], [], rfl,
      ⟨[char], [], rfl, ⟨char, rfl, is_start⟩, [], rfl, nofun⟩, [], rfl, nofun⟩⟩
  · rw [Rule.eq_of_kind_eq mem Rule.newline_mem is_newline] at accepts
    have starts := Pattern.starts_of_matches accepts
    simp only [Pattern.starts, Pattern.exactly, Pattern.literal, Pattern.nullable, Bool.false_and,
      Bool.or_false, Bool.or_eq_true, beq_iff_eq] at starts
    obtain rfl | rfl := starts
    · exact ⟨_, Rule.newline_mem, .inl ⟨_, rfl, rfl⟩⟩
    · exact ⟨_, Rule.whitespace_mem, [_], [], rfl, ⟨_, rfl, rfl⟩, [], rfl, nofun⟩

/-- No line feed is passed over. -/
theorem IsFailure.no_newline {length : Nat} (failure : IsFailure text length) :
    '\n' ∉ text.take length := by
  intro has_newline
  obtain ⟨shorter, rfl⟩ := Nat.exists_eq_succ_of_ne_zero (Nat.ne_of_gt failure.pos)
  cases text with
  | nil => cases has_newline
  | cons char text =>
      have rejects : ∀ rule ∈ Rule.all, ¬ rule.pattern.Matches [char] := fun rule mem =>
        failure.rejects rule mem 1 Nat.one_pos (Nat.le_add_left ..)
      obtain one | ⟨rule, mem, more, accepts⟩ :=
        (failure.viable_iff _ failure.pos failure.le_length).1 (Nat.le_refl _)
      · obtain rfl : shorter = 0 := Nat.succ.inj one
        obtain rfl := List.mem_singleton.1 has_newline
        exact rejects _ Rule.newline_mem (.inl ⟨_, rfl, rfl⟩)
      · obtain ⟨other, other_mem, other_accepts⟩ :=
          exists_rule_of_newline mem accepts (List.mem_append_left more has_newline)
        exact rejects other other_mem other_accepts

theorem IsFailures.no_newline {length : Nat} (failures : IsFailures text length) :
    '\n' ∉ text.take length := by
  induction failures with
  | once text length failure => exact failure.no_newline
  | again text length further failure _ ih =>
      rw [List.take_add, List.mem_append]
      exact not_or.2 ⟨failure.no_newline, ih⟩

/-- Only words of several parts have line feeds. -/
theorem Lexes.kind_of_newline {offset : Nat} {tokens : List Token}
    (lexes : Lexes offset text tokens) :
    ∀ token ∈ tokens, '\n' ∈ token.text.toList → token.kind ∈ spacedWords := by
  induction lexes with
  | done => nofun
  | blank _ _ _ _ _ _ _ _ ih => exact ih
  | token offset text kind length token tokens munch not_trivia is_token lexes ih =>
      refine List.forall_mem_cons.2 ⟨fun has_newline => ?_, ih⟩
      obtain ⟨rule, mem, rfl, accepts⟩ := munch.exists_rule
      rw [is_token.text_eq, String.toList_ofList] at has_newline
      rw [is_token.kind_eq]
      refine (kind_of_uses_newline rule mem
        (Pattern.uses_of_matches accepts has_newline)).resolve_right fun is_newline => ?_
      rw [is_newline] at not_trivia
      cases not_trivia
  | failures offset text length token tokens failures goes_on is_token lexes ih =>
      refine List.forall_mem_cons.2 ⟨fun has_newline => ?_, ih⟩
      rw [is_token.text_eq, String.toList_ofList] at has_newline
      exact absurd has_newline failures.no_newline

/-! ## Tokens in a text -/

/-- A token of pieces stands behind a front of their text. -/
theorem exists_front_of_mem_place {token : Token} {start : Place} {pieces : List Piece}
    (mem : token ∈ place start pieces) :
    ∃ front back, pieces.flatMap (·.text) = front ++ token.text.toList ++ back ∧
      start.afterAll front = ⟨token.line, token.column, token.offset⟩ := by
  induction pieces generalizing start with
  | nil => cases mem
  | cons piece rest ih =>
      rw [place, List.mem_append, Piece.token?] at mem
      obtain mem | mem := mem
      · split at mem
        · cases mem
        · obtain rfl := List.mem_singleton.1 mem
          exact ⟨[], rest.flatMap (·.text), by simp, rfl⟩
      · obtain ⟨front, back, rest_eq, place_eq⟩ := ih mem
        refine ⟨piece.text ++ front, back, ?_, ?_⟩
        · rw [List.flatMap_cons, rest_eq, List.append_assoc, List.append_assoc, List.append_assoc]
        · rw [afterAll_append, place_eq]

theorem length_le_bytes (text : List Char) : text.length ≤ bytes text := by
  induction text with
  | nil => exact Nat.zero_le _
  | cons char text ih =>
      have pos := char.utf8Size_pos
      rw [bytes_cons, List.length_cons]
      omega

end Lexer

open Lexer

/-- The place of a token is the one that is counted in the text. -/
structure IsPlaced (source : String) (token : Token) : Prop where
  /-- The line of its start. -/
  line_eq : token.line = lineAt source token.span.start
  /-- The column of its start. -/
  column_eq : token.column = columnAt source token.span.start
  /-- Its characters are counted on from there. -/
  endColumn_eq : token.endColumn = token.column + token.text.length
  /-- It ends as many lines further as it has line feeds. -/
  end_line : lineAt source token.span.stop = token.line + token.text.toList.count '\n'
  /-- If it has none, it ends in the column that is counted there. -/
  end_column : '\n' ∉ token.text.toList → columnAt source token.span.stop = token.endColumn
  /-- Only words of several parts have any. -/
  kind_mem : '\n' ∈ token.text.toList → token.kind ∈ spacedWords
  /-- No number is greater than the bytes of the text allow. -/
  le_size : token.line ≤ source.utf8ByteSize + 1 ∧ token.endColumn ≤ source.utf8ByteSize + 1

section

variable {source : String} {token : Token} {front back : List Char}

/-- The token stands behind the front of the text. -/
structure StandsBehind (source : String) (front back : List Char) (token : Token) : Prop where
  /-- What stands before and behind it. -/
  source_eq : source.toList = front ++ token.text.toList ++ back
  /-- Its place is the one behind the front. -/
  place_eq : Place.afterAll {} front = ⟨token.line, token.column, token.offset⟩

theorem StandsBehind.start_eq (stands : StandsBehind source front back token) :
    token.span.start = bytes front := by
  have place_eq := stands.place_eq
  rw [afterAll_eq] at place_eq
  exact (congrArg Place.offset place_eq).symm

theorem StandsBehind.stop_eq (stands : StandsBehind source front back token) :
    token.span.stop = bytes (front ++ token.text.toList) := by
  rw [bytes_append, bytes_toList, ← stands.start_eq]
  rfl

theorem StandsBehind.front_eq (stands : StandsBehind source front back token) :
    source.toList = front ++ (token.text.toList ++ back) := by
  rw [stands.source_eq, List.append_assoc]

theorem StandsBehind.position_eq (stands : StandsBehind source front back token) :
    token.position = positionAt source token.span.start := by
  rw [stands.start_eq, ← position_afterAll stands.front_eq, stands.place_eq]
  rfl

theorem StandsBehind.isPlaced (stands : StandsBehind source front back token)
    (kind_mem : '\n' ∈ token.text.toList → token.kind ∈ spacedWords) : IsPlaced source token := by
  have position_eq := stands.position_eq
  have line_eq : token.line = lineAt source token.span.start := congrArg (·.1) position_eq
  have column_eq : token.column = columnAt source token.span.start := congrArg (·.2) position_eq
  have front_line := lineAt_of_append stands.front_eq
  rw [← stands.start_eq, ← line_eq] at front_line
  have front_column := columnAt_of_append stands.front_eq
  rw [← stands.start_eq, ← column_eq] at front_column
  have length_le := length_le_bytes source.toList
  rw [bytes_toList, stands.source_eq, List.length_append, List.length_append] at length_le
  have text_length : token.text.toList.length = token.text.length := String.length_toList
  refine ⟨line_eq, column_eq, rfl, ?_, fun one_line => ?_, kind_mem, ?_, ?_⟩
  · rw [stands.stop_eq, lineAt_of_append stands.source_eq, List.count_append, front_line,
      Nat.add_right_comm]
  · have column_at := afterAll_of_one_line one_line (Place.afterAll {} front)
    rw [← afterAll_append, stands.place_eq, afterAll_eq] at column_at
    rw [stands.stop_eq, columnAt_of_append stands.source_eq]
    exact column_at
  · have count_le : front.count '\n' ≤ front.length := List.count_le_length
    omega
  · have column_le := (List.rtakeWhile_suffix (· != '\n') front).length_le
    rw [Lexeme.endColumn]
    omega

/-- What comes behind the end of a token has a later line or column than its start, and no earlier
one than its end. -/
theorem StandsBehind.before {other : Token} {front' back' : List Char}
    (stands : StandsBehind source front back token)
    (other_stands : StandsBehind source front' back' other) (not_empty : token.text ≠ "")
    (le : token.span.stop ≤ other.span.start) :
    token.position < other.position ∧ positionAt source token.span.stop ≤ other.position := by
  have same := stands.source_eq.symm.trans other_stands.front_eq
  rw [stands.stop_eq, other_stands.start_eq] at le
  obtain ⟨more, rfl⟩ := exists_more_of_bytes_le same le
  have text_not_nil : token.text.toList ≠ [] := mt String.toList_eq_nil_iff.1 not_empty
  have start_lt := position_lt_afterAll (Place.afterAll {} front) text_not_nil
  have end_le := position_le_afterAll (Place.afterAll {} (front ++ token.text.toList)) more
  rw [← afterAll_append, position_afterAll stands.front_eq, position_afterAll stands.source_eq,
    ← stands.start_eq, ← stands.stop_eq, ← stands.position_eq] at start_lt
  rw [← afterAll_append, position_afterAll stands.source_eq,
    position_afterAll other_stands.front_eq, ← stands.stop_eq, ← other_stands.start_eq,
    ← other_stands.position_eq] at end_le
  exact ⟨start_lt.trans_le end_le, end_le⟩

/-- Every token of a text stands behind a front of it. -/
theorem exists_standsBehind (mem : token ∈ place {} (join (pieces source.toList))) :
    ∃ front back, StandsBehind source front back token := by
  obtain ⟨front, back, source_eq, place_eq⟩ := exists_front_of_mem_place mem
  rw [flatMap_join_pieces] at source_eq
  exact ⟨front, back, source_eq, place_eq⟩

/-- The end mark stands behind the whole text. -/
theorem standsBehind_endMark (source : String) (prev : Option Token) :
    StandsBehind source source.toList []
      (.endMark (Place.afterAll {} source.toList).line (Place.afterAll {} source.toList).column
        (Place.afterAll {} source.toList).offset prev) where
  source_eq := by
    rw [List.append_nil]
    exact (List.append_nil _).symm
  place_eq := rfl

/-- Whatever ends at the place where the text ends is followed by nothing. -/
theorem StandsBehind.position_stop_eq_iff (stands : StandsBehind source front back token) :
    positionAt source token.span.stop = positionAt source source.utf8ByteSize ↔
      token.span.stop = source.utf8ByteSize := by
  refine ⟨fun same => ?_, congrArg _⟩
  have stop_position := position_afterAll stands.source_eq
  have size_position := position_afterAll (List.append_nil source.toList).symm
  rw [← stands.stop_eq] at stop_position
  rw [bytes_toList] at size_position
  have back_nil : back = [] := by
    by_contra not_nil
    have later := position_lt_afterAll (Place.afterAll {} (front ++ token.text.toList)) not_nil
    rw [← afterAll_append, ← stands.source_eq, stop_position, size_position, same] at later
    exact lt_irrefl _ later
  rw [stands.stop_eq, ← bytes_toList, stands.source_eq, back_nil, List.append_nil]

end

/-- The tokens of a text stand on the lines and in the columns that are counted in it, each of them
later than the one before.  The end mark may stand at the end of the last token, and does so
exactly if nothing follows that token. -/
theorem tokenize_positions (source : String) :
    ∃ init final, tokenize source = init ++ [final] ∧ final.kind = .endMark ∧
      (∀ token ∈ init ++ [final], IsPlaced source token) ∧
      ((init ++ [final]).Pairwise fun first second =>
        first.position < second.position ∧ positionAt source first.span.stop ≤ second.position) ∧
      ∀ last ∈ init.getLast?, positionAt source last.span.stop = final.position ↔
        last.span.stop = source.utf8ByteSize := by
  have lexes := lexes_place {} source.toList
  have final_stands := standsBehind_endMark source
    (place {} (join (pieces source.toList))).getLast?
  have not_empty : ∀ token ∈ place {} (join (pieces source.toList)), token.text ≠ "" :=
    fun token mem => (lexes.tiles.exists_slice mem).1
  refine ⟨_, _, rfl, rfl, ?_, ?_, ?_⟩
  · refine List.forall_mem_append.2 ⟨fun token mem => ?_, List.forall_mem_singleton.2 ?_⟩
    · obtain ⟨front, back, stands⟩ := exists_standsBehind mem
      exact stands.isPlaced (lexes.kind_of_newline token mem)
    · exact final_stands.isPlaced nofun
  · refine List.pairwise_append.2
      ⟨?_, List.pairwise_singleton .., fun token mem final final_mem => ?_⟩
    · refine lexes.standBehind.sorted.imp_of_mem fun first_mem second_mem in_order => ?_
      obtain ⟨front, back, stands⟩ := exists_standsBehind first_mem
      obtain ⟨front', back', other_stands⟩ := exists_standsBehind second_mem
      exact stands.before other_stands (not_empty _ first_mem) in_order.1
    · obtain rfl := List.mem_singleton.1 final_mem
      obtain ⟨front, back, stands⟩ := exists_standsBehind mem
      refine stands.before final_stands (not_empty _ mem) ?_
      rw [stands.stop_eq, final_stands.start_eq, stands.source_eq, bytes_append _ back]
      exact Nat.le_add_right ..
  · intro last last_mem
    obtain ⟨front, back, stands⟩ := exists_standsBehind (List.mem_of_getLast? last_mem)
    rw [final_stands.position_eq, final_stands.start_eq, bytes_toList]
    exact stands.position_stop_eq_iff

/-- The end of a word of two parts is counted on from its start, though it lies on a later line. -/
example : (tokenize "ORDER\n BY\n").map (fun token => (token.line, token.column, token.endColumn)) =
    [(1, 1, 10), (3, 1, 1)] := by
  cbv

end WorkItemQuery
