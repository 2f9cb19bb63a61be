import WorkItemQuery.Proofs.Token.Positions
import WorkItemQuery.Token.Loop

/-!
# The loop makes the tokens of the text

The index of lines finds the place that is counted from the start of the text, and a stretch that is
cut out between two pieces is the text of a piece.  So each round of the loop makes the token that
stands at the place of its piece, and the rounds together make all of them.
-/

namespace WorkItemQuery
namespace Lexer

variable {front inside back text : List Char}

/-! ## Offsets in a text -/

theorem splitAt?_append (front back : List Char) :
    splitAt? (bytes front) (front ++ back) = some (front, back) := by
  induction front with
  | nil => cases back <;> rfl
  | cons char front ih =>
      obtain ⟨shorter, size_eq⟩ := Nat.exists_eq_add_one_of_ne_zero
        (Nat.ne_of_gt (bytes_pos (List.cons_ne_nil char front)))
      have first_le : char.utf8Size ≤ bytes (char :: front) := by
        rw [bytes_cons]
        exact Nat.le_add_right ..
      have rest_eq : bytes (char :: front) - char.utf8Size = bytes front := by
        rw [bytes_cons, Nat.add_sub_cancel_left]
      rw [size_eq] at first_le rest_eq
      rw [size_eq, List.cons_append, splitAt?, if_pos first_le, rest_eq, ih]
      rfl

/-- Between the offsets behind two fronts of a text stands what the longer one has more. -/
theorem slice?_append (front inside back : List Char) :
    slice? (front ++ (inside ++ back)) (bytes front) (bytes (front ++ inside)) = some inside := by
  have inside_eq : bytes (front ++ inside) - bytes front = bytes inside := by
    rw [bytes_append, Nat.add_sub_cancel_left]
  have in_order : bytes front ≤ bytes (front ++ inside) := by
    rw [bytes_append]
    exact Nat.le_add_right ..
  rw [slice?, if_pos in_order, splitAt?_append, inside_eq]
  simp [splitAt?_append]

/-! ## Lines -/

/-- Below the low bound all indices pass, and from the high one on none does. -/
theorem partitionPoint_eq {passes : Nat → Bool} {low high point : Nat}
    (low_le : low ≤ point) (le_high : point ≤ high)
    (passes_iff : ∀ index, low ≤ index → index < high → (passes index = true ↔ index < point)) :
    partitionPoint passes low high = point := by
  induction low, high using partitionPoint.induct passes with
  | case1 low high lt middle middle_passes ih =>
      have middle_lt : middle < point := (passes_iff middle (by omega) (by omega)).1 middle_passes
      rw [partitionPoint, if_pos lt]
      dsimp only
      rw [if_pos middle_passes]
      exact ih middle_lt le_high fun index le lt => passes_iff index (by omega) lt
  | case2 low high lt middle middle_fails ih =>
      have le_middle : point ≤ middle := by
        refine Nat.le_of_not_lt fun middle_lt => middle_fails ?_
        exact (passes_iff middle (by omega) (by omega)).2 middle_lt
      rw [partitionPoint, if_pos lt]
      dsimp only
      rw [if_neg middle_fails]
      exact ih low_le le_middle fun index le lt => passes_iff index le (by omega)
  | case3 low high not_lt =>
      rw [partitionPoint, if_neg not_lt]
      omega

theorem startsFrom_append (offset : Nat) (front back : List Char) :
    startsFrom offset (front ++ back) =
      startsFrom offset front ++ startsFrom (offset + bytes front) back := by
  induction front generalizing offset with
  | nil => rfl
  | cons char front ih =>
      rw [List.cons_append, startsFrom, startsFrom, ih, bytes_cons, ← Nat.add_assoc]
      split <;> rfl

/-- There is a line behind every line feed. -/
theorem length_startsFrom (offset : Nat) (text : List Char) :
    (startsFrom offset text).length = text.count '\n' := by
  induction text generalizing offset with
  | nil => rfl
  | cons char text ih =>
      rw [startsFrom, List.count_cons]
      split
      · rename_i is_feed
        rw [List.length_cons, ih, is_feed, beq_self_eq_true, if_pos rfl]
      · rename_i not_feed
        rw [ih, if_neg (mt eq_of_beq not_feed), Nat.add_zero]

theorem startsFrom_bounds (offset : Nat) (text : List Char) :
    ∀ start ∈ startsFrom offset text, offset < start ∧ start ≤ offset + bytes text := by
  induction text generalizing offset with
  | nil => nofun
  | cons char text ih =>
      have pos := char.utf8Size_pos
      have rest_bounds : ∀ start ∈ startsFrom (offset + char.utf8Size) text,
          offset < start ∧ start ≤ offset + bytes (char :: text) := by
        intro start mem
        have bounds := ih (offset + char.utf8Size) start mem
        rw [bytes_cons]
        omega
      rw [startsFrom]
      split
      · refine List.forall_mem_cons.2 ⟨?_, rest_bounds⟩
        rw [bytes_cons]
        omega
      · exact rest_bounds

/-- The last line of a text starts behind its last line feed. -/
theorem getLast?_starts (front : List Char) :
    (0 :: startsFrom 0 front).getLast? = some (bytes (front.rdropWhile (· != '\n'))) := by
  induction front using List.reverseRecOn with
  | nil => rfl
  | append_singleton front char ih =>
      rw [startsFrom_append, List.rdropWhile_concat, Nat.zero_add]
      by_cases is_feed : char = '\n'
      · subst is_feed
        have starts_eq : startsFrom (bytes front) ['\n'] = [bytes (front ++ ['\n'])] := by
          rw [bytes_append]
          rfl
        rw [starts_eq, ← List.cons_append, List.getLast?_concat]
        rfl
      · simp [is_feed, startsFrom, ih]

namespace LineIndex

theorem of_starts (front back : List Char) :
    (LineIndex.of (front ++ back)).starts =
      (0 :: startsFrom 0 front) ++ startsFrom (bytes front) back := by
  rw [LineIndex.of, startsFrom_append, Nat.zero_add]
  rfl

/-- The lines that start at an offset or before are those behind the line feeds before it, and the
first. -/
theorem lineOf_append (front back : List Char) :
    (LineIndex.of (front ++ back)).lineOf (bytes front) = front.count '\n' + 1 := by
  have front_length : (0 :: startsFrom 0 front).length = front.count '\n' + 1 := by
    rw [List.length_cons, length_startsFrom]
  rw [lineOf, of_starts]
  refine partitionPoint_eq (Nat.zero_le _) ?_ fun index _ lt => ?_
  · rw [List.length_append, front_length]
    exact Nat.le_add_right ..
  · rw [← front_length]
    by_cases is_front : index < (0 :: startsFrom 0 front).length
    · rw [List.getElem?_append_left is_front, List.getElem?_eq_getElem is_front]
      have le : (0 :: startsFrom 0 front)[index] ≤ bytes front := by
        obtain first | mem := List.mem_cons.1 (List.getElem_mem is_front)
        · rw [first]
          exact Nat.zero_le _
        · simpa using (startsFrom_bounds 0 front _ mem).2
      exact iff_of_true (decide_eq_true le) is_front
    · rw [List.getElem?_append_right (Nat.le_of_not_lt is_front)]
      refine iff_of_false (fun passes => ?_) is_front
      obtain ⟨start, start_eq, le⟩ := (Option.any_eq_true _ _).1 passes
      have bounds := startsFrom_bounds (bytes front) back start (List.mem_of_getElem? start_eq)
      exact absurd (of_decide_eq_true le) (Nat.not_le_of_gt bounds.1)

theorem start_append (front back : List Char) :
    (LineIndex.of (front ++ back)).starts[front.count '\n']? =
      some (bytes (front.rdropWhile (· != '\n'))) := by
  have last_index : (0 :: startsFrom 0 front).length - 1 = front.count '\n' := by
    rw [List.length_cons, length_startsFrom, Nat.add_sub_cancel]
  rw [of_starts, List.getElem?_append_left, ← getLast?_starts, List.getLast?_eq_getElem?,
    last_index]
  rw [List.length_cons, length_startsFrom]
  exact Nat.lt_succ_self _

/-- The place of an offset is the one that is counted up to it, as far as 32 bits go. -/
theorem position?_append (front back : List Char) :
    (LineIndex.of (front ++ back)).position? (bytes front) =
      some (word (Place.afterAll {} front).line, word (Place.afterAll {} front).column) := by
  have passed_eq := slice?_append (front.rdropWhile (· != '\n')) (front.rtakeWhile (· != '\n')) back
  rw [List.rdropWhile_append_rtakeWhile, ← List.append_assoc, List.rdropWhile_append_rtakeWhile]
    at passed_eq
  rw [position?, lineOf_append]
  dsimp only
  rw [start_append, afterAll_eq]
  simp [LineIndex.of, passed_eq]

end LineIndex

/-- No line and no column is greater than the bytes before it allow. -/
theorem afterAll_le (front : List Char) :
    (Place.afterAll {} front).line ≤ bytes front + 1 ∧
      (Place.afterAll {} front).column ≤ bytes front + 1 := by
  have length_le := length_le_bytes front
  have count_le : front.count '\n' ≤ front.length := List.count_le_length
  have column_le := (List.rtakeWhile_suffix (· != '\n') front).length_le
  rw [afterAll_eq]
  dsimp only
  omega

/-- The token of a kind with a text at a place. -/
def Place.token (place : Place) (kind : Kind) (text : List Char) : Token :=
  ⟨⟨kind, place.line, place.column, place.offset, .ofList text⟩, []⟩

theorem word_of_lt {value : Nat} (lt : value < Span.bound) : word value = value :=
  Nat.mod_eq_of_lt lt

namespace LineIndex

/-- In a text that is short enough the place of an offset is the one that is counted up to it. -/
theorem position?_of_small (front back : List Char)
    (small : bytes (front ++ back) + 1 < Span.bound) :
    (LineIndex.of (front ++ back)).position? (bytes front) =
      some ((Place.afterAll {} front).line, (Place.afterAll {} front).column) := by
  have bounds := afterAll_le front
  rw [bytes_append] at small
  rw [position?_append, word_of_lt (by omega), word_of_lt (by omega)]

/-- In a text that is short enough the token between two offsets stands at the place that is counted
up to the first. -/
theorem token?_of_small (kind : Kind)
    (small : bytes (front ++ (inside ++ back)) + 1 < Span.bound) :
    (LineIndex.of (front ++ (inside ++ back))).token? kind (bytes front)
        (bytes (front ++ inside)) = some ((Place.afterAll {} front).token kind inside) := by
  have bounds := afterAll_le front
  have inside_le := length_le_bytes inside
  have offset_eq : (Place.afterAll {} front).offset = bytes front := by
    rw [afterAll_eq]
  have sizes := small
  rw [bytes_append, bytes_append] at sizes
  rw [token?, position?_of_small _ _ small]
  simp only [LineIndex.of, slice?_append, Option.bind_eq_bind, Option.bind_some]
  rw [if_pos, word_of_lt (by omega), Place.token, offset_eq]
  · rfl
  · change (Place.afterAll {} front).column + (String.ofList inside).length < Span.bound
    rw [String.length_ofList]
    omega

end LineIndex

/-! ## Rounds -/

theorem flatMap_join (pieces : List Piece) :
    (join pieces).flatMap (·.text) = pieces.flatMap (·.text) := by
  induction pieces with
  | nil => rfl
  | cons piece rest ih =>
      rw [join, List.flatMap_cons, ← ih]
      split
      · rename_i text more kind_eq joined_eq
        rw [joined_eq, List.flatMap_cons, List.flatMap_cons, List.append_assoc]
      · rfl

/-- Two pieces without a kind may be joined first. -/
theorem join_none_none (text more : List Char) (rest : List Piece) :
    join (⟨none, text⟩ :: ⟨none, more⟩ :: rest) = join (⟨none, text ++ more⟩ :: rest) := by
  simp only [join]
  rcases join rest with _ | ⟨⟨_ | kind, behind⟩, tail⟩
  · rfl
  · simp only [List.append_assoc]
  · rfl

theorem place_append (start : Place) (pieces more : List Piece) :
    place start (pieces ++ more) =
      place start pieces ++ place (start.afterAll (pieces.flatMap (·.text))) more := by
  induction pieces generalizing start with
  | nil => rfl
  | cons piece pieces ih =>
      rw [List.cons_append, place, ih, place, List.flatMap_cons, afterAll_append, List.append_assoc]

/-- The loop stands behind a front of the text and behind pieces that wait for their token. -/
inductive Waits (front : List Char) (progress : Progress) : List Piece → Prop where
  | idle : progress.offset = bytes front → progress.pending? = none → Waits front progress []
  | held (text : List Char) : progress.offset = bytes (front ++ text) →
      progress.pending? = some (bytes front) → Waits front progress [⟨none, text⟩]

namespace Waits

variable {progress : Progress} {waiting rest : List Piece} {source : List Char}

theorem offset_eq (waits : Waits front progress waiting) :
    progress.offset = bytes (front ++ waiting.flatMap (·.text)) := by
  cases waits with
  | idle offset_eq => simpa using offset_eq
  | held text offset_eq => simpa using offset_eq

/-- Where a piece stops that comes next. -/
theorem stop_eq (waits : Waits front progress waiting) (text : List Char) :
    progress.offset + bytes text = bytes (front ++ (waiting.flatMap (·.text) ++ text)) := by
  rw [waits.offset_eq, ← List.append_assoc, bytes_append _ text]

/-- Pieces that wait have been joined. -/
theorem join_eq (waits : Waits front progress waiting) : join waiting = waiting := by
  cases waits <;> rfl

theorem join_append_of_kind (waits : Waits front progress waiting) (kind : Kind)
    (text : List Char) (rest : List Piece) :
    join (waiting ++ ⟨some kind, text⟩ :: rest) = waiting ++ ⟨some kind, text⟩ :: join rest := by
  cases waits <;> rfl

theorem join_append_of_none (waits : Waits front progress waiting) (text : List Char)
    (rest : List Piece) :
    join (waiting ++ ⟨none, text⟩ :: rest) =
      join (⟨none, waiting.flatMap (·.text) ++ text⟩ :: rest) := by
  cases waits with
  | idle => rfl
  | held more =>
      rw [List.singleton_append, join_none_none, List.flatMap_singleton]

/-- The pieces that wait become one token. -/
theorem flush?_eq (waits : Waits front progress waiting) (back : List Char)
    (source_eq : source = front ++ (waiting.flatMap (·.text) ++ back))
    (small : bytes source + 1 < Span.bound) :
    (LineIndex.of source).flush? progress.offset progress = some { progress with
      pending? := none
      tokens := progress.tokens ++ place (Place.afterAll {} front) waiting } := by
  subst source_eq
  cases waits with
  | idle offset_eq pending_eq =>
      obtain ⟨offset, pending?, tokens⟩ := progress
      obtain rfl : pending? = none := pending_eq
      rw [place, List.append_nil]
      rfl
  | held text offset_eq pending_eq =>
      rw [List.flatMap_singleton] at small
      rw [LineIndex.flush?, pending_eq, offset_eq, List.flatMap_singleton]
      dsimp only
      rw [LineIndex.token?_of_small .unrecognized small]
      rfl

/-- A piece with a kind makes the token of the pieces that wait, and its own. -/
theorem round?_of_kind (waits : Waits front progress waiting) (kind : Kind) (text : List Char)
    (source_eq : source = front ++ (waiting.flatMap (·.text) ++ (text ++ back)))
    (small : bytes source + 1 < Span.bound) :
    ∃ next, (LineIndex.of source).round? progress ⟨some kind, text⟩ = some next ∧
      Waits (front ++ (waiting.flatMap (·.text) ++ text)) next [] ∧
      next.tokens = progress.tokens ++
        place (Place.afterAll {} front) (waiting ++ [⟨some kind, text⟩]) := by
  let flushed : Progress := { progress with
    pending? := none
    tokens := progress.tokens ++ place (Place.afterAll {} front) waiting }
  have flush_eq : (LineIndex.of source).flush? progress.offset progress = some flushed :=
    waits.flush?_eq _ source_eq small
  have place_eq : place (Place.afterAll {} front) (waiting ++ [⟨some kind, text⟩]) =
      place (Place.afterAll {} front) waiting ++
        (Piece.token? (Place.afterAll {} (front ++ waiting.flatMap (·.text)))
          ⟨some kind, text⟩).toList := by
    rw [place_append, ← afterAll_append, place, place, List.append_nil]
  rw [place_eq, Piece.token?, Option.getD_some]
  by_cases is_trivia : kind.isTrivia = true
  · refine ⟨{ flushed with offset := progress.offset + bytes text }, ?_,
      .idle (waits.stop_eq text) rfl, ?_⟩
    · rw [LineIndex.round?]
      simp only [flush_eq, Option.bind_eq_bind, Option.bind_some, if_pos is_trivia]
      rfl
    · rw [if_pos is_trivia, Option.toList_none, List.append_nil]
  · rw [← List.append_assoc front] at source_eq
    have token_eq := LineIndex.token?_of_small kind (source_eq ▸ small)
    rw [← source_eq, bytes_append _ text, ← waits.offset_eq] at token_eq
    refine ⟨{ flushed with
      offset := progress.offset + bytes text
      tokens := flushed.tokens ++
        [(Place.afterAll {} (front ++ waiting.flatMap (·.text))).token kind text] }, ?_,
      .idle (waits.stop_eq text) rfl, ?_⟩
    · rw [LineIndex.round?]
      simp only [flush_eq, Option.bind_eq_bind, Option.bind_some, if_neg is_trivia]
      exact congrArg (· >>= _) token_eq
    · rw [if_neg is_trivia, Option.toList_some, ← List.append_assoc]
      rfl

/-- A piece without a kind waits as well. -/
theorem round?_of_none (waits : Waits front progress waiting) (lines : LineIndex)
    (text : List Char) :
    ∃ next, lines.round? progress ⟨none, text⟩ = some next ∧
      Waits front next [⟨none, waiting.flatMap (·.text) ++ text⟩] ∧
      next.tokens = progress.tokens := by
  refine ⟨_, rfl, .held _ (waits.stop_eq text) ?_, rfl⟩
  cases waits with
  | idle offset_eq pending_eq =>
      rw [pending_eq, offset_eq]
      rfl
  | held more offset_eq pending_eq =>
      rw [pending_eq]
      rfl

/-- The rounds for the pieces that are left make the tokens of all pieces, joined. -/
theorem foldlM_round? (waits : Waits front progress waiting)
    (source_eq : source = front ++ (waiting.flatMap (·.text) ++ rest.flatMap (·.text)))
    (small : bytes source + 1 < Span.bound) :
    ∃ last flushed, rest.foldlM (LineIndex.of source).round? progress = some last ∧
      (LineIndex.of source).flush? (bytes source) last = some flushed ∧
      flushed.tokens =
        progress.tokens ++ place (Place.afterAll {} front) (join (waiting ++ rest)) := by
  induction rest generalizing front progress waiting with
  | nil =>
      have offset_eq := waits.offset_eq
      rw [List.flatMap_nil, List.append_nil] at source_eq
      rw [← source_eq] at offset_eq
      rw [← offset_eq, List.append_nil, waits.join_eq]
      have flushed_eq := waits.flush?_eq [] (by rw [List.append_nil, source_eq]) small
      exact ⟨progress, _, rfl, flushed_eq, rfl⟩
  | cons piece rest ih =>
      obtain ⟨kind?, text⟩ := piece
      rw [List.flatMap_cons] at source_eq
      cases kind? with
      | none =>
          obtain ⟨next, next_eq, next_waits, tokens_eq⟩ :=
            waits.round?_of_none (LineIndex.of source) text
          obtain ⟨last, flushed, last_eq, flushed_eq, all_eq⟩ :=
            ih next_waits (by simpa using source_eq)
          refine ⟨last, flushed, ?_, flushed_eq, ?_⟩
          · rw [List.foldlM_cons, next_eq]
            exact last_eq
          · rw [all_eq, tokens_eq, waits.join_append_of_none]
            rfl
      | some kind =>
          obtain ⟨next, next_eq, next_waits, tokens_eq⟩ :=
            waits.round?_of_kind kind text source_eq small
          obtain ⟨last, flushed, last_eq, flushed_eq, all_eq⟩ :=
            ih next_waits (by simpa using source_eq)
          refine ⟨last, flushed, ?_, flushed_eq, ?_⟩
          · rw [List.foldlM_cons, next_eq]
            exact last_eq
          · have place_eq := place_append (Place.afterAll {} front) (waiting ++ [⟨some kind, text⟩])
              (join rest)
            rw [← afterAll_append, List.flatMap_append, List.flatMap_singleton] at place_eq
            rw [List.append_assoc, List.singleton_append] at place_eq
            rw [all_eq, tokens_eq, waits.join_append_of_kind, place_eq, List.append_assoc]
            rfl

end Waits

/-! ## The loop -/

/-- The loop makes the tokens of every text that is short enough for its offsets, lines and columns
to be numbers of 32 bits. -/
theorem loop?_eq {source : String} (small : source.utf8ByteSize + 1 < Span.bound) :
    loop? source = some (tokenize source) := by
  have size_eq := bytes_toList source
  have small_text : bytes source.toList + 1 < Span.bound := by rwa [size_eq]
  have source_eq : source.toList = [] ++ ([] ++ (pieces source.toList).flatMap (·.text)) := by
    rw [← flatMap_join, flatMap_join_pieces]
    rfl
  obtain ⟨last, flushed, last_eq, flushed_eq, tokens_eq⟩ :=
    (Waits.idle rfl rfl : Waits [] {} []).foldlM_round? source_eq small_text
  have position_eq := LineIndex.position?_of_small source.toList [] (by rwa [List.append_nil])
  have offset_eq : (Place.afterAll {} source.toList).offset = source.utf8ByteSize := by
    rw [afterAll_eq, size_eq]
  rw [List.append_nil, size_eq] at position_eq
  rw [size_eq] at flushed_eq
  rw [loop?, last_eq]
  simp only [flushed_eq, position_eq, Option.bind_eq_bind, Option.bind_some]
  rw [if_pos (Nat.lt_of_succ_lt small), tokens_eq, tokenize, offset_eq]
  rfl

/-- There is no answer where the end of the text is no number of 32 bits. -/
theorem loop?_of_large {source : String} (large : Span.bound ≤ source.utf8ByteSize) :
    loop? source = none := by
  simp [loop?, Nat.not_lt_of_le large]

end Lexer
end WorkItemQuery
