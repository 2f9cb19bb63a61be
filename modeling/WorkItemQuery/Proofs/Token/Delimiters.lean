import WorkItemQuery.Proofs.Token.Alphabet

/-!
# What may stand behind a token

A token is read as it is written if nothing behind it can be added to it.  A delimiter ends every
token, except that some words may have blanks inside: a name may be the first part of such a word,
and so the text behind its blank has to begin in another way than the second part.
-/

namespace WorkItemQuery
namespace Lexer

/-- No start of what follows can be added to a text. -/
def Unextended (text rest : List Char) : Prop :=
  ∀ more behind, rest = more ++ behind → more ≠ [] → kindOf? (text ++ more) = none

/-- The characters that stand behind tokens. -/
def delimiters : List Char := [' ', ',', ')']

/-- The characters between tokens. -/
def gapChars : List Char := [' ', '\t', '\r', '\x0c', '\n']

/-- What follows is nothing, or begins with a delimiter. -/
def Ends (rest : List Char) : Prop := ∀ char more, rest = char :: more → char ∈ delimiters

theorem ends_nil : Ends [] := nofun

theorem ends_cons {char : Char} (mem : char ∈ delimiters) (rest : List Char) :
    Ends (char :: rest) := by
  rintro _ _ ⟨⟩
  exact mem

theorem unextended_nil (text : List Char) : Unextended text [] := by
  intro more behind nil_eq not_nil
  exact absurd (List.append_eq_nil_iff.1 nil_eq.symm).1 not_nil

theorem unextended_of_dead {text : List Char} {char : Char}
    (dead : advance char (alive Rule.all text) = []) (rest : List Char) :
    Unextended text (char :: rest) := by
  intro more behind rest_eq not_nil
  obtain _ | ⟨first, more⟩ := more
  · exact absurd rfl not_nil
  · obtain ⟨rfl, -⟩ := List.cons.inj rest_eq
    rw [kindOf?, alive_append, alive_cons, dead, alive_of_nil]
    rfl

/-- What a text that has a kind can be extended to is accepted with the first character behind. -/
theorem unextended_cons {text : List Char} {char : Char} {rest : List Char}
    (rejects : ∀ rule ∈ Rule.all, ∀ more behind, rest = more ++ behind →
      ¬ rule.pattern.Matches (text ++ char :: more)) : Unextended text (char :: rest) := by
  intro more behind rest_eq not_nil
  obtain _ | ⟨first, more⟩ := more
  · exact absurd rfl not_nil
  · rw [List.cons_append] at rest_eq
    obtain ⟨rfl, tail_eq⟩ := List.cons.inj rest_eq
    exact kindOf?_eq_none fun rule mem => rejects rule mem more behind tail_eq

theorem matches_of_kindOf? {rule : Rule} (mem : rule ∈ Rule.all) {text : List Char}
    (kind_eq : kindOf? text = some rule.kind) : rule.pattern.Matches text := by
  obtain ⟨other, other_mem, same, accepts⟩ := exists_rule_of_kindOf? kind_eq
  rwa [Rule.eq_of_kind_eq other_mem mem same] at accepts

/-! ## Words with blanks inside -/

/-- The words that may have blanks inside. -/
def spacedWords : KindSet := .ofList [.orderByKw, .asofKw, .workItemsKw, .workItemLinksKw]

/-- The blanks that may stand inside them. -/
def innerBlanks : List Char := [' ', '\t', '\r', '\n']

theorem mem_innerBlanks {char : Char} (is_gap : Rule.isGap char = true) : char ∈ innerBlanks := by
  simpa [Rule.isGap, innerBlanks, or_assoc] using is_gap

theorem mem_gapChars_of_isGap {char : Char} (is_gap : Rule.isGap char = true) : char ∈ gapChars := by
  have inner_gap : ∀ char ∈ innerBlanks, char ∈ gapChars := by decide
  exact inner_gap char (mem_innerBlanks is_gap)

/-- What they begin with up to their first blank. -/
def firstParts : List (List Char) :=
  [['o', 'r', 'd', 'e', 'r'], ['a', 's'], ['w', 'o', 'r', 'k'],
   ['w', 'o', 'r', 'k', 'i', 't', 'e', 'm']]

/-- The beginnings of their parts behind a blank. -/
def laterParts : List (List Char) :=
  [['b', 'y'], ['o', 'f'], ['i', 't', 'e', 'm', 's'], ['i', 't', 'e', 'm'],
   ['l', 'i', 'n', 'k', 's']]

/-- What follows begins with a part of a word that may stand behind a blank. -/
def StartsLaterPart (rest : List Char) : Prop :=
  ∃ gap part behind, rest = gap ++ (part ++ behind) ∧ (∀ char ∈ gap, Rule.isGap char = true) ∧
    part.map Rule.foldCase ∈ laterParts

/-- Up to its first blank a text of the pattern is one of the fronts, and it goes on behind the blank
with a later part. -/
def IsSpaced (pattern : Pattern) (fronts : List (List Char)) : Prop :=
  ∀ text blank more, Rule.isGap blank = true → (∀ char ∈ text, Rule.isGap char = false) →
    pattern.Matches (text ++ blank :: more) →
    text.map Rule.foldCase ∈ fronts ∧ StartsLaterPart more

/-- A word without a blank. -/
theorem isSpaced_word {word : String}
    (no_blank : ∀ char ∈ innerBlanks, (Rule.word word).uses char = false) :
    IsSpaced (Rule.word word) [] := by
  intro text blank more is_gap _ accepts
  have blank_uses := Pattern.uses_of_matches accepts (List.mem_append_right _ (.head _))
  rw [no_blank blank (mem_innerBlanks is_gap)] at blank_uses
  cases blank_uses

/-- A word before a blank, or before what has its first blank later. -/
theorem IsSpaced.andThen {word : String} {gaps second : Pattern} {fronts : List (List Char)}
    (second_spaced : IsSpaced second fronts)
    (no_blank : ∀ char ∈ innerBlanks, (Rule.word word).uses char = false)
    (only_gaps : ∀ front, gaps.Matches front → ∀ char ∈ front, Rule.isGap char = true)
    (second_later : ∀ tail, second.Matches tail →
      ∃ part behind, tail = part ++ behind ∧ part.map Rule.foldCase ∈ laterParts) :
    IsSpaced (.andThen (Rule.word word) (.andThen gaps second))
      (word.toList :: fronts.map (word.toList ++ ·)) := by
  intro text blank more is_gap no_gap accepts
  obtain ⟨front, back, rfl, word_accepts, gap, tail, tail_eq, gap_accepts, second_accepts⟩ :=
    Pattern.matches_andThen_of_not_uses (no_blank blank (mem_innerBlanks is_gap)) accepts
  rw [Rule.matches_word] at word_accepts
  cases gap with
  | nil =>
      rw [List.nil_append] at tail_eq
      rw [← tail_eq] at second_accepts
      obtain ⟨front_mem, starts⟩ := second_spaced back blank more is_gap
        (fun char mem => no_gap char (List.mem_append_right _ mem)) second_accepts
      rw [List.map_append, word_accepts]
      exact ⟨.tail _ (List.mem_map_of_mem front_mem), starts⟩
  | cons first gap =>
      have gap_only := only_gaps _ gap_accepts
      cases back with
      | nil =>
          obtain ⟨rfl, rfl⟩ := List.cons.inj tail_eq
          obtain ⟨part, behind, rfl, part_mem⟩ := second_later tail second_accepts
          rw [List.append_nil, word_accepts]
          exact ⟨.head _, gap, part, behind, rfl, fun char mem => gap_only char (.tail _ mem),
            part_mem⟩
      | cons char back =>
          obtain ⟨rfl, -⟩ := List.cons.inj tail_eq
          have first_gap := gap_only char (.head _)
          rw [no_gap char (List.mem_append_right _ (.head _))] at first_gap
          cases first_gap

theorem only_gaps_gaps (front : List Char) (accepts : Rule.gaps.Matches front) :
    ∀ char ∈ front, Rule.isGap char = true := fun _ mem =>
  Pattern.uses_of_matches accepts mem

theorem only_gaps_oneOrMore (front : List Char)
    (accepts : (Pattern.oneOrMore (.one Rule.isGap)).Matches front) :
    ∀ char ∈ front, Rule.isGap char = true := by
  intro char mem
  have char_uses := Pattern.uses_of_matches accepts mem
  simpa [Pattern.oneOrMore, Pattern.uses] using char_uses

/-- What holds of the four words that may have blanks inside. -/
@[elab_as_elim]
theorem forall_spaced {holds : Rule → Prop}
    (order_by : holds ⟨.orderByKw, .andThen (Rule.word "order")
      (.andThen (.oneOrMore (.one Rule.isGap)) (Rule.word "by"))⟩)
    (asof : holds ⟨.asofKw, .andThen (Rule.word "as") (.andThen Rule.gaps (Rule.word "of"))⟩)
    (items : holds ⟨.workItemsKw,
      .andThen (Rule.word "work") (.andThen Rule.gaps (Rule.word "items"))⟩)
    (links : holds ⟨.workItemLinksKw, .andThen (Rule.word "work") (.andThen Rule.gaps
      (.andThen (Rule.word "item") (.andThen Rule.gaps (Rule.word "links"))))⟩)
    (rule : Rule) (mem : rule ∈ Rule.all) (kind_mem : rule.kind ∈ spacedWords) : holds rule := by
  have filter_mem : rule ∈ Rule.all.filter fun rule => spacedWords.contains rule.kind :=
    List.mem_filter.2 ⟨mem, KindSet.mem_iff_contains.1 kind_mem⟩
  change rule ∈ [_, _, _, _] at filter_mem
  simp only [List.mem_cons, List.not_mem_nil, or_false] at filter_mem
  obtain rfl | rfl | rfl | rfl := filter_mem
  · exact order_by
  · exact asof
  · exact items
  · exact links

theorem isSpaced_of_mem {rule : Rule} (mem : rule ∈ Rule.all) (kind_mem : rule.kind ∈ spacedWords) :
    IsSpaced rule.pattern firstParts := by
  have of_subset : ∀ {pattern fronts}, IsSpaced pattern fronts → fronts ⊆ firstParts →
      IsSpaced pattern firstParts := by
    intro pattern fronts spaced subset text blank more is_gap no_gap accepts
    obtain ⟨front_mem, starts⟩ := spaced text blank more is_gap no_gap accepts
    exact ⟨subset front_mem, starts⟩
  have word_later : ∀ {word : String}, word.toList ∈ laterParts → ∀ tail,
      (Rule.word word).Matches tail →
        ∃ part behind, tail = part ++ behind ∧ part.map Rule.foldCase ∈ laterParts := by
    intro word word_mem tail accepts
    exact ⟨tail, [], (List.append_nil tail).symm, Rule.matches_word.1 accepts ▸ word_mem⟩
  have links_spaced := (isSpaced_word (by decide : ∀ char ∈ innerBlanks,
    (Rule.word "links").uses char = false)).andThen (by decide : ∀ char ∈ innerBlanks,
    (Rule.word "item").uses char = false) only_gaps_gaps (word_later (by decide))
  refine forall_spaced ?order_by ?asof ?items ?links rule mem kind_mem
  case order_by =>
    exact of_subset ((isSpaced_word (by decide)).andThen (by decide) only_gaps_oneOrMore
      (word_later (by decide))) (by decide)
  case asof =>
    exact of_subset ((isSpaced_word (by decide)).andThen (by decide) only_gaps_gaps
      (word_later (by decide))) (by decide)
  case items =>
    exact of_subset ((isSpaced_word (by decide)).andThen (by decide) only_gaps_gaps
      (word_later (by decide))) (by decide)
  case links =>
    refine of_subset (links_spaced.andThen (by decide) only_gaps_gaps ?_) (by decide)
    rintro _ ⟨part, behind, rfl, part_accepts, -⟩
    exact ⟨part, behind, rfl, by rw [Rule.matches_word.1 part_accepts]; decide⟩

/-! ## Names, numbers and variables -/

/-- The characters that names, numbers and variables begin with. -/
def wordStarts : List Char :=
  ((List.range 128).map Char.ofNat).filter fun char =>
    Rule.isNameStart char || char.isDigit || char == '@'

/-- Only words with blanks inside begin like a name and go on behind a blank, a comma or a
parenthesis. -/
theorem spaced_of_uses : ∀ char ∈ ',' :: ')' :: gapChars, ∀ rule ∈ Rule.all,
    ∀ branch ∈ rule.pattern.branches, branch.uses char = true →
      ∀ first ∈ wordStarts, branch.starts first = true →
        Rule.isGap char = true ∧ rule.kind ∈ spacedWords ∧ Rule.isNameStart first = true := by
  decide +kernel

theorem toNat_lt_of_nameStart {char : Char} (is_start : Rule.isNameStart char = true) :
    char.toNat < 128 := by
  have letter_or_bar : (char.isUpper || char.isLower || char == '_') = true := is_start
  rw [Bool.or_eq_true, Bool.or_eq_true, beq_iff_eq] at letter_or_bar
  obtain (is_upper | is_lower) | rfl := letter_or_bar
  · have bounds : 'A'.val ≤ char.val ∧ char.val ≤ 'Z'.val := of_decide_eq_true is_upper
    exact Nat.lt_of_le_of_lt (UInt32.le_iff_toNat_le.mp bounds.2) (by decide)
  · have le : char.val ≤ 'z'.val := of_decide_eq_true (Bool.and_eq_true_iff.mp is_lower).2
    exact Nat.lt_of_le_of_lt (UInt32.le_iff_toNat_le.mp le) (by decide)
  · decide

theorem toNat_lt_of_isDigit {char : Char} (is_digit : char.isDigit = true) :
    char.toNat < 128 := by
  simp only [Char.isDigit, Bool.and_eq_true, decide_eq_true_eq, UInt32.le_iff_toNat_le] at is_digit
  exact Nat.lt_of_le_of_lt is_digit.2 (by decide)

theorem not_nameStart_of_isDigit {char : Char} (is_digit : char.isDigit = true) :
    Rule.isNameStart char = false := by
  have small_digits : ∀ code < 128, (Char.ofNat code).isDigit = true →
      Rule.isNameStart (Char.ofNat code) = false := by
    decide
  rw [← Char.ofNat_toNat char] at is_digit ⊢
  exact small_digits _ (by simpa using toNat_lt_of_isDigit (by simpa using is_digit)) is_digit

theorem mem_wordStarts {char : Char}
    (choice : Rule.isNameStart char = true ∨ char.isDigit = true ∨ char = '@') :
    char ∈ wordStarts := by
  have small : char.toNat < 128 := by
    obtain is_start | is_digit | rfl := choice
    · exact toNat_lt_of_nameStart is_start
    · exact toNat_lt_of_isDigit is_digit
    · decide
  rw [wordStarts, List.mem_filter]
  refine ⟨List.mem_map.2 ⟨char.toNat, List.mem_range.2 small, Char.ofNat_toNat char⟩, ?_⟩
  simpa [or_assoc] using choice

/-- A text that begins like a name can be extended behind a delimiter only to a word with blanks
inside. -/
theorem unextended_of_wordStart {first : Char} {text rest : List Char}
    (first_mem : first ∈ wordStarts) (ends : Ends rest)
    (no_word : ∀ more, rest = ' ' :: more → Rule.isNameStart first = true →
      (∀ char ∈ first :: text, Rule.isGap char = false) ∧
        ∀ front behind, more = front ++ behind → ¬ StartsLaterPart front) :
    Unextended (first :: text) rest := by
  cases rest with
  | nil => exact unextended_nil _
  | cons char rest =>
      refine unextended_cons fun rule mem more behind rest_eq accepts => ?_
      obtain ⟨branch, branch_mem, branch_accepts⟩ := Pattern.exists_branch accepts
      have char_mem : char ∈ first :: text ++ char :: more :=
        List.mem_append_right _ (.head _)
      have only_blank : ∀ char ∈ delimiters, char ∈ ',' :: ')' :: gapChars ∧
          (Rule.isGap char = true → char = ' ') := by
        decide
      obtain ⟨other_mem, blank_eq⟩ := only_blank char (ends char rest rfl)
      obtain ⟨is_gap, kind_mem, name_start⟩ := spaced_of_uses char other_mem rule mem branch
        branch_mem (Pattern.uses_of_matches branch_accepts char_mem) first first_mem
        (Pattern.starts_of_matches branch_accepts)
      obtain rfl := blank_eq is_gap
      obtain ⟨no_gap, no_part⟩ := no_word rest rfl name_start
      exact no_part more behind rest_eq
        (isSpaced_of_mem mem kind_mem _ _ _ rfl no_gap accepts).2

theorem unextended_digits {text rest : List Char} (kind_eq : kindOf? text = some .digits)
    (ends : Ends rest) : Unextended text rest := by
  obtain ⟨_, back, rfl, ⟨first, rfl, is_digit⟩, -⟩ := matches_of_kindOf? Rule.digits_mem kind_eq
  refine unextended_of_wordStart (mem_wordStarts (.inr (.inl is_digit))) ends ?_
  intro more rest_eq name_start
  rw [not_nameStart_of_isDigit is_digit] at name_start
  cases name_start

theorem unextended_variable {text rest : List Char} (kind_eq : kindOf? text = some .variableRef)
    (ends : Ends rest) : Unextended text rest := by
  obtain ⟨_, back, rfl, ⟨first, rfl, is_at⟩, -⟩ := matches_of_kindOf? Rule.variable_mem kind_eq
  obtain rfl : first = '@' := by simpa using is_at
  refine unextended_of_wordStart (mem_wordStarts (.inr (.inr rfl))) ends ?_
  intro more rest_eq name_start
  cases name_start

/-! ## Fixed texts -/

/-- No rule that is alive goes on with a delimiter. -/
def closes (rules : List Rule) : Bool :=
  rules.all fun rule => delimiters.all fun char => (rule.pattern.step char).isNever

/-- A fixed text has its kind, and a delimiter ends it. -/
theorem closes_canonicalText : ∀ kind : Kind, kind ≠ .leftBracket →
    ∀ text ∈ kind.canonicalText?, kindOf? text.toList = some kind ∧
      closes (alive Rule.all text.toList) = true := by
  decide

theorem unextended_canonicalText {kind : Kind} (not_bracket : kind ≠ .leftBracket) {text : String}
    (text_eq : kind.canonicalText? = some text) {rest : List Char} (ends : Ends rest) :
    Unextended text.toList rest := by
  cases rest with
  | nil => exact unextended_nil _
  | cons char rest =>
      refine unextended_of_dead (List.eq_nil_iff_forall_not_mem.2 fun rule mem => ?_) rest
      obtain ⟨origin, origin_mem, not_never, -⟩ := mem_advance.1 mem
      have closed := (closes_canonicalText kind not_bracket text text_eq).2
      rw [closes, List.all_eq_true] at closed
      have is_never := List.all_eq_true.1 (closed origin origin_mem) char (ends char rest rfl)
      rw [not_never] at is_never
      cases is_never

/-! ## Closed texts -/

/-- Nothing can be added to a text if no rule that begins like it goes on behind its last
character. -/
theorem unextended_of_closedBy {first last : Char} {text inner : List Char}
    (closed : ∀ rule ∈ Rule.all, ∀ branch ∈ rule.pattern.branches,
      branch.starts first = true → branch.closedBy last = true)
    (text_eq : text = inner ++ [last]) (first_eq : text.head? = some first) (rest : List Char) :
    Unextended text rest := by
  cases rest with
  | nil => exact unextended_nil _
  | cons char rest =>
      refine unextended_cons fun rule mem more behind rest_eq accepts => ?_
      obtain ⟨branch, branch_mem, accepts⟩ := Pattern.exists_branch accepts
      have starts : branch.starts first = true := by
        obtain ⟨_, tail, rfl⟩ := List.head?_eq_some_iff.1 first_eq
        exact Pattern.starts_of_matches accepts
      rw [text_eq, List.append_assoc, List.singleton_append] at accepts
      cases Pattern.eq_nil_of_closedBy (closed rule mem branch branch_mem starts) accepts

theorem unextended_mark {char : Char} (mem : char ∈ ['(', '.', '-']) (rest : List Char) :
    Unextended [char] rest := by
  have closed : ∀ char ∈ ['(', '.', '-'], ∀ rule ∈ Rule.all, ∀ branch ∈ rule.pattern.branches,
      branch.starts char = true → branch.closedBy char = true := by
    decide
  exact unextended_of_closedBy (closed char mem) (List.nil_append _).symm rfl rest

theorem unextended_bracketed (inner rest : List Char) :
    Unextended ('[' :: inner ++ [']']) rest := by
  have closed : ∀ rule ∈ Rule.all, ∀ branch ∈ rule.pattern.branches,
      branch.starts '[' = true → branch.closedBy ']' = true := by
    decide
  exact unextended_of_closedBy closed rfl rfl rest

/-! ## Literals -/

/-- What is left to match inside a literal. -/
def literalRules (quote : Char) : List Rule :=
  [⟨.string, .andThen (Rule.literalBody quote) (.exactly quote)⟩,
   ⟨.openString, Rule.literalBody quote⟩]

/-- What is left to match inside a literal behind a single quote. -/
def quotedRules (quote : Char) : List Rule :=
  [⟨.string, .either (.andThen (.andThen (.exactly quote) (Rule.literalBody quote))
      (.exactly quote)) .done⟩,
   ⟨.openString, .andThen (.exactly quote) (Rule.literalBody quote)⟩]

theorem advance_literalRules {quote : Char} (not_newline : quote ≠ '\n') (char : Char) :
    advance char (literalRules quote) =
      if char = quote then quotedRules quote
      else if char = '\n' then [] else literalRules quote := by
  by_cases is_quote : char = quote
  · subst is_quote
    simp [advance, literalRules, quotedRules, Rule.literalBody, Pattern.step, Pattern.exactly,
      Pattern.nullable, Pattern.alt, Pattern.seq, Pattern.isNever]
  · by_cases is_newline : char = '\n'
    · simp [is_newline, not_newline.symm, advance, literalRules, Rule.literalBody, Pattern.step,
        Pattern.exactly, Pattern.nullable, Pattern.alt, Pattern.seq, Pattern.isNever]
    · simp [is_quote, is_newline, advance, literalRules, Rule.literalBody, Pattern.step,
        Pattern.exactly, Pattern.nullable, Pattern.alt, Pattern.seq, Pattern.isNever]

theorem advance_quotedRules (quote char : Char) :
    advance char (quotedRules quote) = if char = quote then literalRules quote else [] := by
  by_cases is_quote : char = quote
  · subst is_quote
    simp [advance, literalRules, quotedRules, Rule.literalBody, Pattern.step, Pattern.exactly,
      Pattern.nullable, Pattern.alt, Pattern.seq, Pattern.isNever]
  · simp [is_quote, advance, quotedRules, Rule.literalBody, Pattern.step, Pattern.exactly,
      Pattern.nullable, Pattern.alt, Pattern.seq, Pattern.isNever]

/-- Inside a literal, reading is either behind a single quote or not. -/
theorem alive_literalRules {quote : Char} (not_newline : quote ≠ '\n') (body : List Char)
    {rules : List Rule}
    (state : rules = literalRules quote ∨ rules = quotedRules quote ∨ rules = []) :
    alive rules body = literalRules quote ∨ alive rules body = quotedRules quote ∨
      alive rules body = [] := by
  induction body generalizing rules with
  | nil => exact state
  | cons char body ih =>
      simp only [alive_cons]
      refine ih ?_
      obtain rfl | rfl | rfl := state
      · rw [advance_literalRules not_newline]
        split
        · exact .inr (.inl rfl)
        · split
          · exact .inr (.inr rfl)
          · exact .inl rfl
      · rw [advance_quotedRules]
        split
        · exact .inl rfl
        · exact .inr (.inr rfl)
      · exact .inr (.inr rfl)

theorem advance_quote {quote : Char} (mem : quote ∈ ['\'', '"']) :
    advance quote Rule.all = literalRules quote ∧ quote ≠ '\n' := by
  simp only [List.mem_cons, List.not_mem_nil, or_false] at mem
  obtain rfl | rfl := mem
  · exact ⟨rfl, by decide⟩
  · exact ⟨rfl, by decide⟩

/-- Behind a closed literal only the quote that would be its first doubled one could be read. -/
theorem exists_quotedRules {text : List Char} (kind_eq : kindOf? text = some .string) :
    ∃ quote ∈ ['\'', '"'], alive Rule.all text = quotedRules quote := by
  obtain ⟨quote, body, quote_mem, rfl⟩ : ∃ quote body, quote ∈ ['\'', '"'] ∧ text = quote :: body := by
    obtain accepts | accepts := matches_of_kindOf? Rule.string_mem kind_eq <;>
      obtain ⟨_, body, rfl, ⟨quote, rfl, quote_eq⟩, -⟩ := accepts <;>
      exact ⟨quote, body, by rw [eq_of_beq quote_eq]; decide, rfl⟩
  obtain ⟨first_step, not_newline⟩ := advance_quote quote_mem
  refine ⟨quote, quote_mem, ?_⟩
  rw [kindOf?, alive_cons, first_step] at kind_eq
  rw [alive_cons, first_step]
  -- Only behind a closing quote has a text the kind of a closed literal.
  obtain open_eq | closed_eq | dead := alive_literalRules not_newline body (.inl rfl)
  · rw [open_eq] at kind_eq
    cases kind_eq
  · exact closed_eq
  · rw [dead] at kind_eq
    cases kind_eq

/-- Nothing but its quote can be added to a closed literal. -/
theorem unextended_closed {quote char : Char} {text : List Char}
    (alive_eq : alive Rule.all text = quotedRules quote) (not_quote : char ≠ quote)
    (rest : List Char) : Unextended text (char :: rest) := by
  refine unextended_of_dead ?_ rest
  rw [alive_eq, advance_quotedRules, if_neg not_quote]

theorem unextended_string {text rest : List Char} (kind_eq : kindOf? text = some .string)
    (ends : Ends rest) : Unextended text rest := by
  have no_quote : ∀ quote ∈ ['\'', '"'], quote ∉ delimiters := by decide
  obtain ⟨quote, quote_mem, alive_eq⟩ := exists_quotedRules kind_eq
  cases rest with
  | nil => exact unextended_nil _
  | cons char rest =>
      refine unextended_closed alive_eq ?_ rest
      rintro rfl
      exact no_quote char quote_mem (ends char rest rfl)

/-! ## Names -/

/-- The two texts differ where both have a character, whatever the case. -/
def clashes : List Char → List Char → Bool
  | char :: text, other :: part => Rule.foldCase char != other || clashes text part
  | _, _ => false

/-- A text that begins in another way than the later parts of words. -/
def startsOther (text : List Char) : Bool :=
  text.head?.any (fun char => !Rule.isGap char) && laterParts.all (clashes text)

theorem startsOther_canonicalText : ∀ kind : Kind, ∀ text ∈ kind.canonicalText?,
    startsOther text.toList = true := by
  decide

theorem gap_not_used (char : Char) (is_gap : Rule.isGap char = true) :
    Rule.bareName.uses char = false := by
  simp only [Rule.isGap, Bool.or_eq_true, beq_iff_eq] at is_gap
  obtain ((rfl | rfl) | rfl) | rfl := is_gap <;> decide

theorem not_clashes {text part behind more : List Char} (eq : text ++ behind = part ++ more) :
    clashes text (part.map Rule.foldCase) = false := by
  induction text generalizing part with
  | nil => rfl
  | cons char text ih =>
      cases part with
      | nil => rfl
      | cons other part =>
          obtain ⟨rfl, tail_eq⟩ := List.cons.inj eq
          simp [clashes, ih tail_eq]

/-- The text begins with a word or mark of fixed text. -/
def StartsFixed (text : List Char) : Prop :=
  ∃ (kind : Kind) (fixed : String) (behind : List Char), kind.canonicalText? = some fixed ∧
    text = fixed.toList ++ behind

theorem StartsFixed.append {text : List Char} (starts : StartsFixed text) (rest : List Char) :
    StartsFixed (text ++ rest) := by
  obtain ⟨kind, fixed, behind, fixed_eq, rfl⟩ := starts
  exact ⟨kind, fixed, behind ++ rest, fixed_eq, List.append_assoc ..⟩

/-- What follows a name is nothing, a mark, or a blank and a fixed text. -/
def Apart (rest : List Char) : Prop :=
  Ends rest ∧ ∀ more, rest = ' ' :: more → StartsFixed more

theorem apart_nil : Apart [] := ⟨ends_nil, nofun⟩

theorem apart_mark {char : Char} (mem : char ∈ delimiters) (not_blank : char ≠ ' ')
    (rest : List Char) : Apart (char :: rest) := by
  refine ⟨ends_cons mem rest, ?_⟩
  rintro _ ⟨⟩
  exact absurd rfl not_blank

theorem apart_blank {text : List Char} (fixed : StartsFixed text) : Apart (' ' :: text) := by
  refine ⟨ends_cons (.head _) text, ?_⟩
  rintro _ ⟨⟩
  exact fixed

theorem unextended_identifier {text rest : List Char} (kind_eq : kindOf? text = some .identifier)
    (apart : Apart rest) : Unextended text rest := by
  obtain accepts | accepts := matches_of_kindOf? Rule.identifier_mem kind_eq
  · obtain ⟨_, _, rfl, ⟨first, rfl, first_eq⟩, inner, _, rfl, -, last, rfl, last_eq⟩ := accepts
    obtain rfl : first = '[' := by simpa using first_eq
    obtain rfl : last = ']' := by simpa using last_eq
    exact unextended_bracketed inner rest
  · have no_gap : ∀ char ∈ text, Rule.isGap char = false := by
      intro char mem
      have char_uses := Pattern.uses_of_matches accepts mem
      rw [Bool.eq_false_iff]
      intro is_gap
      rw [gap_not_used char is_gap] at char_uses
      cases char_uses
    obtain ⟨_, back, rfl, ⟨_, _, rfl, ⟨first, rfl, is_start⟩, -⟩, -⟩ := accepts
    refine unextended_of_wordStart (mem_wordStarts (.inl is_start)) apart.1 ?_
    intro more rest_eq name_start
    refine ⟨no_gap, ?_⟩
    rintro front behind more_eq ⟨gap, part, tail, rfl, gap_only, part_mem⟩
    obtain ⟨kind, fixed, after, fixed_eq, rfl⟩ := apart.2 more rest_eq
    have other := startsOther_canonicalText kind fixed fixed_eq
    rw [startsOther, Bool.and_eq_true, List.all_eq_true] at other
    cases gap with
    | nil =>
        rw [List.nil_append, List.append_assoc] at more_eq
        have clash := other.2 _ part_mem
        rw [not_clashes more_eq] at clash
        cases clash
    | cons char gap =>
        obtain ⟨head, head_eq, not_gap⟩ := (Option.any_eq_true ..).1 other.1
        obtain ⟨fixed_tail, fixed_cons⟩ := List.head?_eq_some_iff.1 head_eq
        rw [fixed_cons] at more_eq
        obtain ⟨rfl, -⟩ := List.cons.inj more_eq
        rw [gap_only _ (.head _)] at not_gap
        cases not_gap

end Lexer
end WorkItemQuery
