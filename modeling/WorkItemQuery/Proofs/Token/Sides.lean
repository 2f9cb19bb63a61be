import WorkItemQuery.Proofs.Token.WholeWords

/-!
# Sides of links without brackets

A side of a link in brackets may be written without them if no character of names stands before it,
and no dot with a name right behind it.  Then the other tokens stay what they are, since no text of
a rule has a blank, a comma or a parenthesis before a side.
-/

namespace WorkItemQuery

/-! ## Characters side by side -/

namespace Pattern

/-- The character may be the last of a text of the pattern. -/
def ends (char : Char) : Pattern → Bool
  | .never => false
  | .done => false
  | .one accepts => accepts char
  | .either left right => left.ends char || right.ends char
  | .andThen first second => second.ends char || (second.nullable && first.ends char)
  | .many inner => inner.ends char

/-- The two characters may stand side by side in a text of the pattern. -/
def meets (left right : Char) : Pattern → Bool
  | .never => false
  | .done => false
  | .one _ => false
  | .either first second => first.meets left right || second.meets left right
  | .andThen first second =>
    first.meets left right || second.meets left right || (first.ends left && second.starts right)
  | .many inner => inner.meets left right || (inner.ends left && inner.starts right)

section

variable {pattern : Pattern} {left right : Char} {front back : List Char}

theorem ends_of_matches {last : Char} (accepts : pattern.Matches (front ++ [last])) :
    pattern.ends last = true := by
  induction pattern generalizing front with
  | never => cases accepts
  | done => simp [Matches] at accepts
  | one test =>
      obtain ⟨other, text_eq, accepted⟩ := accepts
      obtain ⟨-, last_eq⟩ := List.append_inj' (text_eq.trans (List.nil_append [other]).symm) rfl
      obtain rfl := List.singleton_inj.1 last_eq
      exact accepted
  | either first second first_ih second_ih =>
      rw [ends, Bool.or_eq_true]
      exact accepts.imp first_ih second_ih
  | andThen first second first_ih second_ih =>
      obtain ⟨before, behind, text_eq, first_accepts, second_accepts⟩ := accepts
      rw [ends, Bool.or_eq_true, Bool.and_eq_true]
      obtain rfl | ⟨inner, other, rfl⟩ := List.eq_nil_or_concat' behind
      · rw [List.append_nil] at text_eq
        exact .inr ⟨nullable_iff.2 second_accepts, first_ih (text_eq ▸ first_accepts)⟩
      · rw [← List.append_assoc] at text_eq
        obtain ⟨-, last_eq⟩ := List.append_inj' text_eq rfl
        exact .inl (second_ih (List.singleton_inj.1 last_eq ▸ second_accepts))
  | many inner ih =>
      obtain ⟨parts, text_eq, all_accept⟩ := accepts
      induction parts using List.reverseRecOn with
      | nil => simp at text_eq
      | append_singleton parts part parts_ih =>
          rw [List.flatten_append, List.flatten_singleton] at text_eq
          obtain rfl | ⟨inner_part, other, rfl⟩ := List.eq_nil_or_concat' part
          · rw [List.append_nil] at text_eq
            exact parts_ih text_eq fun part mem => all_accept part (List.mem_append_left _ mem)
          · rw [← List.append_assoc] at text_eq
            obtain ⟨-, last_eq⟩ := List.append_inj' text_eq rfl
            obtain rfl := List.singleton_inj.1 last_eq
            exact ih (all_accept _ (List.mem_append_right parts (List.mem_singleton_self _)))

/-- Two characters side by side stand in one part of a text, or where the parts meet. -/
theorem side_by_side_cases {before behind : List Char}
    (text_eq : front ++ left :: right :: back = before ++ behind) :
    (∃ more, before = front ++ left :: right :: more) ∨
      (∃ more, behind = more ++ left :: right :: back) ∨
        before = front ++ [left] ∧ behind = right :: back := by
  obtain ⟨more, rfl, more_eq⟩ | ⟨more, rfl, rfl⟩ := List.append_eq_append_iff.1 text_eq
  · match more, more_eq with
    | [], more_eq => exact .inr (.inl ⟨[], more_eq.symm⟩)
    | [_], more_eq =>
        obtain ⟨rfl, rfl⟩ := List.cons.inj more_eq
        exact .inr (.inr ⟨rfl, rfl⟩)
    | _ :: _ :: more, more_eq =>
        obtain ⟨rfl, tail_eq⟩ := List.cons.inj more_eq
        obtain ⟨rfl, rfl⟩ := List.cons.inj tail_eq
        exact .inl ⟨more, rfl⟩
  · exact .inr (.inl ⟨more, rfl⟩)

theorem meets_of_matches (accepts : pattern.Matches (front ++ left :: right :: back)) :
    pattern.meets left right = true := by
  induction pattern generalizing front back with
  | never => cases accepts
  | done => simp [Matches] at accepts
  | one test =>
      obtain ⟨other, text_eq, -⟩ := accepts
      have lengths := congrArg List.length text_eq
      simp only [List.length_append, List.length_cons, List.length_nil] at lengths
      omega
  | either first second first_ih second_ih =>
      rw [meets, Bool.or_eq_true]
      exact accepts.imp first_ih second_ih
  | andThen first second first_ih second_ih =>
      obtain ⟨before, behind, text_eq, first_accepts, second_accepts⟩ := accepts
      rw [meets, Bool.or_eq_true, Bool.or_eq_true, Bool.and_eq_true]
      obtain ⟨more, rfl⟩ | ⟨more, rfl⟩ | ⟨rfl, rfl⟩ := side_by_side_cases text_eq
      · exact .inl (.inl (first_ih first_accepts))
      · exact .inl (.inr (second_ih second_accepts))
      · exact .inr ⟨ends_of_matches first_accepts, starts_of_matches second_accepts⟩
  | many inner ih =>
      obtain ⟨parts, text_eq, all_accept⟩ := accepts
      rw [meets, Bool.or_eq_true, Bool.and_eq_true]
      induction parts generalizing front with
      | nil => simp at text_eq
      | cons part parts parts_ih =>
          obtain ⟨part_accepts, rest_accept⟩ := List.forall_mem_cons.1 all_accept
          obtain ⟨more, rfl⟩ | ⟨more, rest_eq⟩ | ⟨rfl, rest_eq⟩ := side_by_side_cases text_eq
          · exact .inl (ih part_accepts)
          · exact parts_ih rest_eq.symm rest_accept
          · have rest_accepts : (many inner).Matches (right :: back) :=
              ⟨parts, rest_eq.symm, rest_accept⟩
            have rest_starts := starts_of_matches rest_accepts
            exact .inr ⟨ends_of_matches part_accepts, rest_starts⟩

end

end Pattern

/-- The bare spelling of a side of a link. -/
def Kind.bareSide? : Kind → Option String
  | .sourceKw => some "Source"
  | .targetKw => some "Target"
  | _ => none

/-- What a token may be spelled as where sides of links in brackets are made bare. -/
def Token.IsUnbracketed (token : Token) (spelling : Kind × List Char) : Prop :=
  spelling.1 = token.kind ∧ (spelling.2 = token.text.toList ∨
    ∃ side, token.kind.bareSide? = some side ∧ spelling.2 = side.toList)

namespace Lexer

/-- The words and marks that a condition or a sort key may begin behind. -/
def itemOpeners : KindSet :=
  .ofList [.whereKw, .orderByKw, .everKw, .notKw, .andKw, .orKw, .leftParen, .comma]

/-! ## Bare sides -/

/-- The second text is the first, which consists of the tokens with gaps before, between and behind
them, with some of the sides in brackets bare.  They may be bare where what stands before and what
stands behind allow it. -/
inductive Unbrackets (allowed : List Char → List Char → Prop) :
    List Char → List Char → List Token → List Char → Prop where
  | gap (before gap : List Char) : (∀ char ∈ gap, char ∈ gapChars) →
      Unbrackets allowed before gap [] gap
  | kept (before gap rest rest' : List Char) (token : Token) (tokens : List Token) :
      (∀ char ∈ gap, char ∈ gapChars) →
      Unbrackets allowed (before ++ gap ++ token.text.toList) rest tokens rest' →
      Unbrackets allowed before (gap ++ (token.text.toList ++ rest)) (token :: tokens)
        (gap ++ (token.text.toList ++ rest'))
  | bare (before gap rest rest' : List Char) (token : Token) (tokens : List Token) (side : String) :
      (∀ char ∈ gap, char ∈ gapChars) → token.kind.bareSide? = some side →
      token.text.toList.head? = some '[' → allowed (before ++ gap) rest →
      Unbrackets allowed (before ++ gap ++ token.text.toList) rest tokens rest' →
      Unbrackets allowed before (gap ++ (token.text.toList ++ rest)) (token :: tokens)
        (gap ++ (side.toList ++ rest'))

/-- The text begins with a dot that has a name right behind it. -/
def dotsName : List Char → Bool
  | '.' :: first :: _ => Rule.isNameStart first
  | _ => false

/-- A side could not be taken for a part of a longer name. -/
structure StandsApart (before behind : List Char) : Prop where
  /-- What stands before does not end in a character of names. -/
  before : ∀ last ∈ before.getLast?, Rule.isNameRest last = false
  /-- What stands behind does not begin with a dot and a name. -/
  behind : dotsName behind = false

end Lexer

/-- The tokens may be neighbours if one of them is a side of a link. -/
structure Token.Borders (first second : Token) : Prop where
  /-- A side stands where a condition or a sort key begins. -/
  opens : second.kind ∈ KindSet.linkSide → first.kind ∈ Lexer.itemOpeners
  /-- A side stands before a dot. -/
  dotted : first.kind ∈ KindSet.linkSide → second.kind = .dot

namespace Lexer

/-! ## Before a side -/

/-- The characters that may stand right before a side, apart from those of names. -/
def openerEnds : List Char := '(' :: ',' :: gapChars

/-- The first characters of bare sides. -/
def sideLetters : List Char := ['S', 'T']

/-- What stands before a side ends in a character of names, or in a mark. -/
def EndsOpening (before : List Char) : Prop :=
  ∃ last, before.getLast? = some last ∧ (Rule.isNameRest last = false → last ∈ openerEnds)

section

variable {kind : Kind} {text rest rest' before gap : List Char}

/-- What opens a condition or a sort key ends in a letter or in a mark. -/
theorem foldCase_of_ends {rule : Rule} (mem : rule ∈ Rule.all) (kind_mem : rule.kind ∈ itemOpeners)
    {last : Char} (ends : rule.pattern.ends last = true) :
    (Rule.foldCase last).isLower = true ∨ last ∈ openerEnds := by
  have filter_mem : rule ∈ Rule.all.filter fun rule => itemOpeners.contains rule.kind :=
    List.mem_filter.2 ⟨mem, KindSet.mem_iff_contains.1 kind_mem⟩
  change rule ∈ [_, _, _, _, _, _, _, _] at filter_mem
  simp only [List.mem_cons, List.not_mem_nil, or_false] at filter_mem
  obtain rfl | rfl | rfl | rfl | rfl | rfl | rfl | rfl := filter_mem <;>
    simp [Pattern.ends, Pattern.nullable, Pattern.exactly, Rule.word, Rule.letters, Rule.letter]
      at ends <;>
    simp [ends, openerEnds]

theorem endsOpening_of_kindOf? (kind_eq : kindOf? text = some kind) (mem : kind ∈ itemOpeners) :
    EndsOpening (before ++ text) := by
  have not_foreign : ∀ rule ∈ Rule.all, rule.kind ∈ itemOpeners → ∀ char ∈ Rule.foreignLetters,
      rule.pattern.ends char = false := by
    decide
  obtain ⟨rule, rule_mem, rfl, accepts⟩ := exists_rule_of_kindOf? kind_eq
  obtain ⟨front, last, rfl⟩ :=
    (List.eq_nil_or_concat' text).resolve_left (ne_nil_of_kindOf? kind_eq)
  have ends := Pattern.ends_of_matches accepts
  refine ⟨last, by rw [← List.append_assoc, List.getLast?_concat], fun not_name => ?_⟩
  refine (foldCase_of_ends rule_mem mem ends).resolve_left fun is_letter => ?_
  obtain name_start | foreign := Rule.isNameStart_or_mem_foreignLetters is_letter
  · rw [Rule.isNameRest_of_isNameStart name_start] at not_name
    cases not_name
  · rw [not_foreign rule rule_mem mem last foreign] at ends
    cases ends

theorem EndsOpening.append_gap (ends : EndsOpening before)
    (only_gap : ∀ char ∈ gap, char ∈ gapChars) : EndsOpening (before ++ gap) := by
  obtain rfl | ⟨front, last, rfl⟩ := List.eq_nil_or_concat' gap
  · rwa [List.append_nil]
  · refine ⟨last, by rw [← List.append_assoc, List.getLast?_concat], fun _ => ?_⟩
    exact .tail _ (.tail _ (only_gap last (by simp)))

/-- A text goes on over a blank, a comma or a parenthesis before a side only in quotes and in
brackets. -/
theorem mem_blankStarts_of_side {rule : Rule} (mem : rule ∈ Rule.all) {first last letter : Char}
    {front back : List Char} (accepts : rule.pattern.Matches (first :: text))
    (text_eq : first :: text = front ++ last :: letter :: back) (last_mem : last ∈ openerEnds)
    (letter_mem : letter ∈ sideLetters) : first ∈ blankStarts := by
  have kinds : ∀ rule ∈ Rule.all, ∀ last ∈ openerEnds, ∀ letter ∈ sideLetters,
      rule.pattern.meets last letter = true → rule.kind ∈ blankKinds := by
    decide
  have no_words : ∀ rule ∈ Rule.keywordRules, rule.kind ∉ blankKinds := by decide
  have no_names : ∀ last ∈ openerEnds, Rule.bareName.uses last = false := by decide
  have kind_mem := kinds rule mem last last_mem letter letter_mem
    (Pattern.meets_of_matches (text_eq ▸ accepts))
  refine (mem_blankStarts mem kind_mem (Pattern.starts_of_matches accepts)).resolve_left ?_
  intro name_start
  have named := (keyword_or_identifier mem accepts name_start).resolve_left fun is_word =>
    no_words rule is_word kind_mem
  obtain rfl := Rule.eq_of_kind_eq mem Rule.identifier_mem named
  have bare := Rule.bareName_of_isNameStart accepts name_start
  have char_mem : last ∈ first :: text := text_eq ▸ List.mem_append_right front (.head _)
  have last_uses := Pattern.uses_of_matches bare char_mem
  rw [no_names last last_mem] at last_uses
  cases last_uses

/-! ## The text behind a token -/

/-- Both texts go on in the same way up to the end of the second one, or up to a side in it. -/
def Agrees (before rest rest' : List Char) : Prop :=
  ∀ front back, rest' = front ++ back → (∃ tail, rest = front ++ tail) ∨
    ∃ common last letter more, front = common ++ letter :: more ∧
      (before ++ common).getLast? = some last ∧ last ∈ openerEnds ∧ letter ∈ sideLetters

theorem Agrees.sameQuote (agrees : Agrees before rest rest') : SameQuote rest rest' := by
  have no_letter : ∀ letter ∈ sideLetters, letter ∉ ['\'', '"'] := by decide
  intro quote quote_mem more rest_eq
  refine (agrees [quote] more rest_eq).resolve_right ?_
  rintro ⟨common, last, letter, more, quote_eq, -, -, letter_mem⟩
  have same : letter ∈ [quote] := quote_eq ▸ List.mem_append_right common (.head more)
  exact no_letter letter letter_mem (List.mem_singleton.1 same ▸ quote_mem)

/-- Behind a bracket both texts begin in the same way. -/
theorem Agrees.exists_tail {back : List Char} (agrees : Agrees (before ++ [']']) rest rest')
    (front : List Char) (rest_eq : rest' = front ++ back)
    (no_opener : ∀ char ∈ front.dropLast, char ∉ openerEnds) :
    ∃ tail, rest = front ++ tail := by
  refine (agrees front back rest_eq).resolve_right ?_
  rintro ⟨common, last, letter, more, rfl, last_eq, last_mem, -⟩
  rw [List.append_assoc, List.getLast?_append_of_ne_nil _ (by simp)] at last_eq
  rw [List.dropLast_append_of_ne_nil (List.cons_ne_nil letter more)] at no_opener
  obtain _ | ⟨_, common_mem⟩ := List.mem_of_getLast? last_eq
  · revert last_mem
    decide
  · exact no_opener last (List.mem_append_left _ common_mem) last_mem

/-- A token stays as it is before a text that goes on as it did up to a side. -/
theorem unextended_of_agrees (kind_eq : kindOf? text = some kind)
    (not_trivia : kind.isTrivia = false) (not_straying : kind ∉ straying)
    (unextended : Unextended text rest) (agrees : Agrees (before ++ text) rest rest') :
    Unextended text rest' := by
  obtain ⟨first, text, rfl⟩ := List.exists_cons_of_ne_nil (ne_nil_of_kindOf? kind_eq)
  by_cases first_mem : first ∈ blankStarts
  · exact unextended_of_blankStarts first_mem kind_eq not_trivia not_straying unextended
      agrees.sameQuote
  intro more behind rest_eq not_nil
  refine kindOf?_eq_none fun rule mem accepts => ?_
  obtain ⟨tail, tail_eq⟩ | ⟨common, last, letter, more, rfl, last_eq, last_mem, letter_mem⟩ :=
    agrees more behind rest_eq
  · obtain ⟨found, found_eq⟩ := exists_accepted mem accepts
    have none_eq := unextended more tail tail_eq not_nil
    rw [kindOf?, found_eq] at none_eq
    cases none_eq
  · rw [List.append_assoc, List.getLast?_append_of_ne_nil _ (by simp)] at last_eq
    obtain ⟨front, front_eq⟩ := List.getLast?_eq_some_iff.1 last_eq
    have text_eq : first :: text ++ (common ++ letter :: more) =
        front ++ last :: letter :: more := by
      rw [← List.append_assoc, front_eq, List.append_assoc, List.singleton_append]
    exact first_mem (mem_blankStarts_of_side mem accepts text_eq last_mem letter_mem)

/-! ## A bare side -/

theorem kindOf?_bareSide : ∀ kind : Kind, ∀ side ∈ kind.bareSide?,
    kindOf? side.toList = some kind := by
  decide

theorem isNameStart_bareSide : ∀ kind : Kind, ∀ side ∈ kind.bareSide?, ∀ char ∈ side.toList,
    Rule.isNameStart char = true := by
  decide

theorem head_bareSide : ∀ kind : Kind, ∀ side ∈ kind.bareSide?,
    ∃ letter ∈ sideLetters, side.toList.head? = some letter := by
  have heads : ∀ kind : Kind, ∀ side ∈ kind.bareSide?,
      sideLetters.any (side.toList.head? == some ·) = true := by decide
  intro kind side side_eq
  obtain ⟨letter, letter_mem, same⟩ := List.any_eq_true.1 (heads kind side side_eq)
  exact ⟨letter, letter_mem, eq_of_beq same⟩

theorem linkSide_of_bareSide : ∀ kind : Kind, ∀ side ∈ kind.bareSide?,
    kind ∈ KindSet.linkSide ∧ kind.isTrivia = false ∧ kind ≠ .leftBracket ∧
      kind.isKeyword = true := by
  decide

/-- A dot in a bare name has a name behind it. -/
theorem exists_next_of_dot {front back : List Char}
    (accepts : Rule.bareName.Matches (front ++ '.' :: back)) :
    ∃ next more, back = next :: more ∧ Rule.isNameStart next = true := by
  have no_last_dot : Rule.bareName.ends '.' = false := by decide
  have no_name_dot : Rule.isNameRest '.' = false ∧ Rule.isNameStart '.' = false := by decide
  cases back with
  | nil =>
      rw [Pattern.ends_of_matches accepts] at no_last_dot
      cases no_last_dot
  | cons next more =>
      have meets := Pattern.meets_of_matches accepts
      refine ⟨next, more, rfl, ?_⟩
      simpa [Rule.bareName, Rule.namePart, Pattern.meets, Pattern.ends, Pattern.starts,
        Pattern.nullable, Pattern.exactly, no_name_dot] using meets

/-- A bare side is read before anything but a further character of names, or a dot and a name. -/
theorem unextended_bareSide {side : String} (side_mem : side ∈ kind.bareSide?)
    (no_name : ∀ char more, rest = char :: more → Rule.isNameRest char = false)
    (no_dot : ∀ first more, rest = '.' :: first :: more → Rule.isNameStart first = false) :
    Unextended side.toList rest := by
  have not_or : ∀ kind : Kind, ∀ side ∈ kind.bareSide?,
      (squeezed side.toList).map Rule.foldCase ≠ ['o', 'r'] := by
    decide
  have names := isNameStart_bareSide kind side side_mem
  replace not_or := not_or kind side side_mem
  have kind_eq := kindOf?_bareSide kind side side_mem
  obtain ⟨own, own_mem, -, own_accepts⟩ :=
    exists_keyword_of_kindOf? kind_eq (linkSide_of_bareSide kind side side_mem).2.2.2
  generalize side.toList = text at names not_or kind_eq own_accepts ⊢
  obtain ⟨first, text, rfl⟩ := List.exists_cons_of_ne_nil (ne_nil_of_kindOf? kind_eq)
  have name_start := names first (.head _)
  intro more behind rest_eq not_nil
  refine kindOf?_eq_none fun rule mem accepts => ?_
  obtain is_word | named := keyword_or_identifier mem accepts name_start
  · exact not_nil (eq_nil_of_keyword own_mem is_word own_accepts accepts not_or)
  · obtain rfl := Rule.eq_of_kind_eq mem Rule.identifier_mem named
    have bare : Rule.bareName.Matches (first :: text ++ more) :=
      Rule.bareName_of_isNameStart accepts name_start
    obtain ⟨char, more, rfl⟩ := List.exists_cons_of_ne_nil not_nil
    have not_name := no_name char (more ++ behind) rest_eq
    obtain rfl := Rule.eq_dot_of_bareName bare (List.mem_append_right (first :: text) (.head _))
      not_name
    obtain ⟨next, more, rfl, is_start⟩ := exists_next_of_dot bare
    rw [no_dot next (more ++ behind) rest_eq] at is_start
    cases is_start

end

/-! ## Texts -/

section

variable {offset : Nat} {before text text' gap rest : List Char} {token : Token}
  {tokens : List Token}

theorem Munches.of_cons (munches : Munches offset text (token :: tokens))
    (text_eq : text = gap ++ (token.text.toList ++ rest))
    (only_gap : ∀ char ∈ gap, char ∈ gapChars) :
    kindOf? token.text.toList = some token.kind ∧ token.kind.isTrivia = false ∧
      Unextended token.text.toList rest ∧ Munches token.span.stop rest tokens := by
  cases munches with
  | token _ gap' rest' _ _ only_gap' offset_eq kind_eq not_trivia unextended munches =>
      obtain ⟨first, more, token_eq⟩ := List.exists_cons_of_ne_nil (ne_nil_of_kindOf? kind_eq)
      have not_gap := not_gap_of_kindOf? (token_eq ▸ kind_eq) not_trivia
      rw [token_eq] at text_eq
      have same := gap_unique only_gap' not_gap only_gap not_gap text_eq
      obtain rfl : rest' = rest := List.append_cancel_left (List.cons.inj same).2
      exact ⟨kind_eq, not_trivia, unextended, munches⟩

/-- Behind a side the text begins with a blank or with the dot. -/
theorem Munches.not_isNameRest (munches : Munches offset text tokens)
    (dotted : ∀ token ∈ tokens.head?, token.kind = .dot) :
    ∀ char more, text = char :: more → Rule.isNameRest char = false := by
  have dot_or_gap : ∀ char ∈ '.' :: gapChars, Rule.isNameRest char = false := by decide
  intro char more text_eq
  refine dot_or_gap char ?_
  cases munches with
  | gap _ _ only_gap => exact .tail _ (only_gap char (text_eq ▸ .head _))
  | token _ gap rest token _ only_gap _ kind_eq =>
      cases gap with
      | cons blank gap =>
          obtain ⟨rfl, -⟩ := List.cons.inj text_eq
          exact .tail _ (only_gap _ (.head _))
      | nil =>
          have dot_mem : ⟨.dot, .exactly '.'⟩ ∈ Rule.all := by simp [Rule.all, Rule.markRules]
          have is_dot :=
            matches_of_kindOf? dot_mem (kind_eq.trans (congrArg some (dotted token rfl)))
          obtain ⟨dot, token_eq, accepted⟩ := is_dot
          rw [token_eq] at text_eq
          obtain ⟨rfl, -⟩ := List.cons.inj text_eq
          exact eq_of_beq accepted ▸ .head _

/-- A text with bare sides goes on as it did, up to a side. -/
theorem Unbrackets.agrees (unbrackets : Unbrackets StandsApart before text tokens text')
    (munches : Munches offset text tokens) (borders : tokens.IsChain Token.Borders)
    (opening : ∀ token ∈ tokens.head?, token.kind ∈ KindSet.linkSide → EndsOpening before) :
    Agrees before text text' := by
  induction unbrackets generalizing offset with
  | gap before gap only_gap => exact fun front back text_eq => .inl ⟨back, text_eq⟩
  | kept before gap rest rest' token tokens only_gap unbrackets ih =>
      obtain ⟨kind_eq, -, -, munches⟩ := munches.of_cons rfl only_gap
      obtain ⟨head_borders, borders⟩ := List.isChain_cons.1 borders
      have agrees := ih munches borders fun next mem is_side =>
        endsOpening_of_kindOf? kind_eq ((head_borders next mem).opens is_side)
      intro front back text_eq
      rw [← List.append_assoc] at text_eq ⊢
      obtain ⟨more, rfl, rest_eq⟩ | ⟨more, same, -⟩ := List.append_eq_append_iff.1 text_eq
      · obtain ⟨tail, rfl⟩ | ⟨common, last, letter, behind, rfl, last_eq, mems⟩ :=
          agrees more back rest_eq
        · exact .inl ⟨tail, by simp⟩
        · refine .inr ⟨gap ++ token.text.toList ++ common, last, letter, behind, by simp, ?_, mems⟩
          rwa [← List.append_assoc, ← List.append_assoc]
      · exact .inl ⟨more ++ rest, by rw [same, List.append_assoc]⟩
  | bare before gap rest rest' token tokens side only_gap side_eq bracket apart unbrackets ih =>
      intro front back text_eq
      obtain ⟨more, rfl, rest_eq⟩ | ⟨more, rfl, -⟩ := List.append_eq_append_iff.1 text_eq
      · cases more with
        | nil => exact .inl ⟨token.text.toList ++ rest, by simp⟩
        | cons first more =>
            obtain ⟨letter, letter_mem, head_eq⟩ := head_bareSide token.kind side side_eq
            obtain ⟨tail, side_text⟩ := List.head?_eq_some_iff.1 head_eq
            rw [side_text] at rest_eq
            obtain ⟨rfl, -⟩ := List.cons.inj rest_eq
            obtain ⟨last, last_eq, opener⟩ := (opening token rfl
              (linkSide_of_bareSide token.kind side side_eq).1).append_gap only_gap
            exact .inr ⟨gap, last, letter, more, rfl, last_eq,
              opener (apart.before last last_eq), letter_mem⟩
      · exact .inl ⟨more ++ (token.text.toList ++ rest), by simp⟩

/-- A text with bare sides is written as the same tokens. -/
theorem Unbrackets.exists_scans (unbrackets : Unbrackets StandsApart before text tokens text')
    (munches : Munches offset text tokens) (borders : tokens.IsChain Token.Borders)
    (regular : ∀ token ∈ tokens, token.kind ∉ straying) :
    ∃ spellings, Scans text' spellings ∧ List.Forall₂ Token.IsUnbracketed tokens spellings := by
  induction unbrackets generalizing offset with
  | gap before gap only_gap =>
      have scans := Scans.nil.behind_gap only_gap (by simp)
      rw [List.append_nil] at scans
      exact ⟨[], scans, .nil⟩
  | kept before gap rest rest' token tokens only_gap unbrackets ih =>
      obtain ⟨kind_eq, not_trivia, unextended, munches⟩ := munches.of_cons rfl only_gap
      obtain ⟨head_borders, borders⟩ := List.isChain_cons.1 borders
      obtain ⟨token_regular, regular⟩ := List.forall_mem_cons.1 regular
      obtain ⟨spellings, scans, spelled⟩ := ih munches borders regular
      have agrees := unbrackets.agrees munches borders fun next mem is_side =>
        endsOpening_of_kindOf? kind_eq ((head_borders next mem).opens is_side)
      have new_unextended := unextended_of_agrees kind_eq not_trivia token_regular unextended agrees
      have token_spelled : token.IsUnbracketed (token.kind, token.text.toList) := ⟨rfl, .inl rfl⟩
      exact ⟨_, scans.token_behind_gap only_gap kind_eq not_trivia new_unextended,
        .cons token_spelled spelled⟩
  | bare before gap rest rest' token tokens side only_gap side_eq bracket apart unbrackets ih =>
      obtain ⟨kind_eq, not_trivia, -, munches⟩ := munches.of_cons rfl only_gap
      obtain ⟨head_borders, borders⟩ := List.isChain_cons.1 borders
      obtain ⟨-, regular⟩ := List.forall_mem_cons.1 regular
      obtain ⟨spellings, scans, spelled⟩ := ih munches borders regular
      obtain ⟨is_side, -, not_bracket, -⟩ := linkSide_of_bareSide token.kind side side_eq
      have agrees := unbrackets.agrees munches borders fun next mem is_side =>
        endsOpening_of_kindOf? kind_eq ((head_borders next mem).opens is_side)
      obtain ⟨more, token_eq⟩ := List.head?_eq_some_iff.1 bracket
      obtain ⟨inner, inner_eq⟩ := exists_concat_of_bracket (token_eq ▸ kind_eq) not_bracket
      rw [token_eq, inner_eq, ← List.append_assoc] at agrees
      have no_opener : '.' ∉ openerEnds := by decide
      have new_unextended : Unextended side.toList rest' := by
        refine unextended_bareSide side_eq (fun char more rest_eq => ?_)
          fun first more rest_eq => ?_
        · obtain ⟨tail, tail_eq⟩ := agrees.exists_tail [char] rest_eq nofun
          exact munches.not_isNameRest (fun next mem => (head_borders next mem).dotted is_side) char
            tail tail_eq
        · obtain ⟨tail, tail_eq⟩ := agrees.exists_tail ['.', first] rest_eq
            (by simpa using no_opener)
          have not_dotted := apart.behind
          rwa [tail_eq] at not_dotted
      have new_kind := kindOf?_bareSide token.kind side side_eq
      have token_spelled : token.IsUnbracketed (token.kind, side.toList) :=
        ⟨rfl, .inr ⟨side, side_eq, rfl⟩⟩
      exact ⟨_, scans.token_behind_gap only_gap new_kind not_trivia new_unextended,
        .cons token_spelled spelled⟩

end
end Lexer
end WorkItemQuery
