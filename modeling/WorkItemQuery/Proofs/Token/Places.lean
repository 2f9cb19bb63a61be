import WorkItemQuery.Proofs.Token.Longest

/-!
# The tokens of a text

The tokens of a text stand one behind another, each with the kind that its text has by itself.  The
end mark is the last token and the only one of its kind, and it remembers the token before it.
-/

namespace WorkItemQuery
namespace Lexer

/-! ## Pieces -/

/-- A piece with a kind has the kind of its text. -/
def Piece.Sound (piece : Piece) : Prop :=
  ∀ kind, piece.kind? = some kind → kindOf? piece.text = some kind

theorem sound_of_mem_piecesAfter {piece : Piece} {taken : Nat} {text : List Char}
    (mem : piece ∈ piecesAfter taken text) : piece.Sound := by
  induction text generalizing taken with
  | nil => cases taken <;> cases mem
  | cons char text ih =>
      cases taken with
      | succ taken => exact ih mem
      | zero =>
          obtain rfl | mem := List.mem_cons.1 mem
          · intro kind kind_eq
            have longest_eq : longest (char :: text) = (some kind, (longest (char :: text)).2) :=
              Prod.ext kind_eq rfl
            exact (kindOf?_of_longest longest_eq).1
          · exact ih mem

theorem piecesAfter_eq (taken : Nat) (text : List Char) :
    piecesAfter taken text = pieces (text.drop taken) := by
  induction text generalizing taken with
  | nil => cases taken <;> rfl
  | cons char text ih =>
      cases taken with
      | zero => rfl
      | succ taken => exact ih taken

/-- The first piece of a text is what is found at its start. -/
theorem pieces_of_longest {text : List Char} {kind? : Option Kind} {length : Nat}
    (not_nil : text ≠ []) (longest_eq : longest text = (kind?, length)) (pos : 0 < length) :
    pieces text = ⟨kind?, text.take length⟩ :: pieces (text.drop length) := by
  obtain ⟨char, text, rfl⟩ := List.exists_cons_of_ne_nil not_nil
  obtain ⟨shorter, rfl⟩ := Nat.exists_eq_add_of_lt pos
  rw [pieces, piecesAfter, longest_eq]
  simp only [piecesAfter_eq]
  rw [Nat.add_sub_cancel, List.drop_succ_cons]

theorem sound_of_mem_join {pieces : List Piece} (all_sound : ∀ piece ∈ pieces, piece.Sound) :
    ∀ piece ∈ join pieces, piece.Sound := by
  induction pieces with
  | nil =>
      intro piece mem
      cases mem
  | cons first rest ih =>
      have rest_sound := ih fun piece mem => all_sound piece (.tail _ mem)
      intro piece mem
      rw [join] at mem
      split at mem
      · rename_i text more kind_eq join_eq
        obtain rfl | mem := List.mem_cons.1 mem
        · intro kind none_eq
          cases none_eq
        · exact rest_sound piece (by rw [join_eq]; exact .tail _ mem)
      · obtain rfl | mem := List.mem_cons.1 mem
        · exact all_sound _ (.head _)
        · exact rest_sound piece mem

/-! ## Places -/

theorem offset_after (start : Place) (char : Char) :
    (start.after char).offset = start.offset + char.utf8Size := by
  unfold Place.after
  split <;> rfl

theorem offset_afterAll (start : Place) (text : List Char) :
    (start.afterAll text).offset = start.offset + (String.ofList text).utf8ByteSize := by
  induction text generalizing start with
  | nil => rfl
  | cons char text ih =>
      rw [Place.afterAll, List.foldl_cons, ← Place.afterAll, ih, offset_after, String.ofList_cons,
        String.utf8ByteSize_append, String.utf8ByteSize_singleton, Nat.add_assoc]

/-- The tokens of pieces stand behind a place, one behind another. -/
theorem place_sorted (start : Place) (pieces : List Piece) :
    (∀ token ∈ place start pieces, start.offset ≤ token.span.start) ∧
      (place start pieces).Pairwise fun first second => first.span.stop ≤ second.span.start := by
  induction pieces generalizing start with
  | nil =>
      refine ⟨fun token mem => ?_, .nil⟩
      cases mem
  | cons piece rest ih =>
      obtain ⟨behind, sorted⟩ := ih (start.afterAll piece.text)
      have le : start.offset ≤ (start.afterAll piece.text).offset := by
        rw [offset_afterAll]
        exact Nat.le_add_right ..
      rw [place, Piece.token?]
      split
      · exact ⟨fun token mem => Nat.le_trans le (behind token mem), sorted⟩
      · refine ⟨?_, List.pairwise_cons.2 ⟨?_, sorted⟩⟩
        · rintro token (_ | ⟨_, mem⟩)
          · exact Nat.le_refl _
          · exact Nat.le_trans le (behind token mem)
        · intro token mem
          rw [offset_afterAll] at behind
          exact behind token mem

theorem exists_piece_of_mem_place {token : Token} {start : Place} {pieces : List Piece}
    (mem : token ∈ place start pieces) :
    ∃ piece ∈ pieces, token.kind = piece.kind?.getD .unrecognized ∧
      token.kind.isTrivia = false ∧ token.text = .ofList piece.text ∧ token.before = [] := by
  induction pieces generalizing start with
  | nil => cases mem
  | cons piece rest ih =>
      rw [place, List.mem_append] at mem
      obtain mem | mem := mem
      · rw [Piece.token?] at mem
        split at mem
        · cases mem
        · rename_i not_trivia
          obtain rfl := List.mem_singleton.1 mem
          exact ⟨piece, .head _, rfl, by simpa using not_trivia, rfl, rfl⟩
      · obtain ⟨piece, piece_mem, holds⟩ := ih mem
        exact ⟨piece, .tail _ piece_mem, holds⟩

end Lexer

/-! ## Token lists -/

/-- Tokens in the order of a text, with an end mark behind them. -/
structure IsTokenList (init : List Token) (final : Token) : Prop where
  /-- The last token is an end mark. -/
  final_kind : final.kind = .endMark
  /-- The other tokens are none. -/
  no_end : ∀ token ∈ init, token.kind ≠ .endMark
  /-- The end mark remembers the token before it. -/
  prev_eq : final.prev? = init.getLast?
  /-- The tokens do not overlap. -/
  sorted : init.Pairwise fun first second => first.span.stop ≤ second.span.start

/-- What the tokens of a text are, apart from their places. -/
structure IsLexed (token : Token) : Prop where
  /-- Blanks are no tokens. -/
  not_trivia : token.kind.isTrivia = false
  /-- A token of some rule has the kind of its text. -/
  kind_eq : token.kind = .unrecognized ∨ Lexer.kindOf? token.text.toList = some token.kind
  /-- Only an end mark remembers what was before it. -/
  before_eq : token.before = []

theorem IsLexed.kind_ne_endMark {token : Token} (lexed : IsLexed token) :
    token.kind ≠ .endMark := by
  obtain kind_eq | kind_eq := lexed.kind_eq
  · rw [kind_eq]
    nofun
  · obtain ⟨rule, mem, rule_kind, -⟩ := Lexer.exists_rule_of_kindOf? kind_eq
    have kinds : ∀ rule ∈ Rule.all, rule.kind ≠ .endMark := by decide
    exact rule_kind ▸ kinds rule mem

/-- The tokens of a text are a token list. -/
theorem exists_tokenize_eq (source : String) :
    ∃ init final, tokenize source = init ++ [final] ∧ IsTokenList init final ∧
      ∀ token ∈ init, IsLexed token := by
  have all_lexed : ∀ token ∈ Lexer.place {} (Lexer.join (Lexer.pieces source.toList)),
      IsLexed token := by
    intro token mem
    obtain ⟨piece, piece_mem, kind_eq, not_trivia, text_eq, before_eq⟩ := Lexer.exists_piece_of_mem_place mem
    refine ⟨not_trivia, ?_, before_eq⟩
    have sound := Lexer.sound_of_mem_join (fun piece => Lexer.sound_of_mem_piecesAfter) piece piece_mem
    cases kind?_eq : piece.kind? with
    | none => exact .inl (by rw [kind_eq, kind?_eq]; rfl)
    | some kind =>
        right
        rw [text_eq, String.toList_ofList, sound kind kind?_eq, kind_eq, kind?_eq]
        rfl
  refine ⟨_, _, rfl, ⟨rfl, ?_, Token.prev?_endMark .., (Lexer.place_sorted ..).2⟩, all_lexed⟩
  exact fun token mem => (all_lexed token mem).kind_ne_endMark

/-- Behind the tokens of a text stands an end mark, which remembers the last of them. -/
theorem exists_endMark_of_tokenize {source : String} {init : List Token} {final : Token}
    (tokens_eq : tokenize source = init ++ [final]) :
    ∃ line column offset, final = .endMark line column offset init.getLast? := by
  obtain ⟨rfl, final_eq⟩ := List.append_inj' tokens_eq rfl
  exact ⟨_, _, _, (List.singleton_inj.1 final_eq).symm⟩

end WorkItemQuery
