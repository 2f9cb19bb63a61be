import WorkItemQuery.Proofs.Token.Blanks
import WorkItemQuery.Proofs.Token.Scan

/-!
# What grows over a blank

A word of several parts could be read over a token without a blank and the blank behind it.  Then
the token is a name, and behind it stands another name, or a word that begins with a letter that
names do not have.  Where neither follows a name, other blanks leave every token as it is.
-/

namespace WorkItemQuery

namespace Rule

theorem isNameRest_of_isNameStart {char : Char} (is_start : isNameStart char = true) :
    isNameRest char = true := by
  rw [isNameStart, Bool.or_eq_true] at is_start
  rw [isNameRest, Char.isAlphanum, Bool.or_eq_true, Bool.or_eq_true]
  exact is_start.imp_left .inl

/-- A first character of names and further ones make a name. -/
theorem matches_bareName {first : Char} {text : List Char} (first_start : isNameStart first = true)
    (rest_names : ∀ char ∈ text, isNameRest char = true) : bareName.Matches (first :: text) :=
  ⟨first :: text, [], (List.append_nil _).symm,
    ⟨[first], text, rfl, ⟨first, rfl, first_start⟩, Pattern.matches_many_one rest_names⟩, [], rfl,
    nofun⟩

/-- A name that begins with a first character of bare names is bare. -/
theorem bareName_of_isNameStart {first : Char} {text : List Char}
    (accepts : (Pattern.either bracketedName bareName).Matches (first :: text))
    (first_start : isNameStart first = true) : bareName.Matches (first :: text) := by
  refine accepts.resolve_left ?_
  rintro ⟨_, _, text_eq, ⟨bracket, rfl, bracket_eq⟩, -⟩
  obtain ⟨rfl, -⟩ := List.cons.inj text_eq
  rw [eq_of_beq bracket_eq] at first_start
  cases first_start

/-- A bare name has no characters but those of its parts and dots. -/
theorem eq_dot_of_bareName {char : Char} {text : List Char} (accepts : bareName.Matches text)
    (mem : char ∈ text) (not_name : isNameRest char = false) : char = '.' := by
  have not_start : isNameStart char = false := Bool.eq_false_iff.2 fun is_start => by
    rw [isNameRest_of_isNameStart is_start] at not_name
    cases not_name
  have char_uses := Pattern.uses_of_matches accepts mem
  simpa [bareName, namePart, Pattern.exactly, Pattern.uses, not_name, not_start] using char_uses

end Rule

namespace Lexer

/-! ## The beginning of a text with a blank -/

/-- The rules whose texts have blanks inside, apart from words. -/
def blankKinds : KindSet := .ofList [.string, .openString, .identifier, .whitespace, .newline]

/-- The characters that their texts begin with, if they have any. -/
def blankStarts : List Char := '\'' :: '"' :: '[' :: gapChars

theorem mem_blankStarts {rule : Rule} (mem : rule ∈ Rule.all) (kind_mem : rule.kind ∈ blankKinds)
    {char : Char} (starts : rule.pattern.starts char = true) :
    Rule.isNameStart char = true ∨ char ∈ blankStarts := by
  have filter_mem : rule ∈ Rule.all.filter fun rule => blankKinds.contains rule.kind :=
    List.mem_filter.2 ⟨mem, KindSet.mem_iff_contains.1 kind_mem⟩
  change rule ∈ [_, _, _, _, _] at filter_mem
  simp only [List.mem_cons, List.not_mem_nil, or_false] at filter_mem
  obtain rfl | rfl | rfl | rfl | rfl := filter_mem <;>
    simp [Pattern.starts, Pattern.nullable, Pattern.exactly, Pattern.literal, Pattern.oneOrMore,
      Rule.closedLiteral, Rule.openLiteral, Rule.bracketedName, Rule.bareName, Rule.namePart,
      Rule.isBlank] at starts
  · obtain rfl | rfl := starts <;> decide
  · obtain rfl | rfl := starts <;> decide
  · obtain rfl | name_start := starts
    · decide
    · exact .inl name_start
  · obtain ((rfl | rfl) | rfl) | rfl := starts <;> decide
  · obtain rfl | rfl := starts <;> decide

theorem spaced_or_blankStarts {rule : Rule} (mem : rule ∈ Rule.all) {first blank : Char}
    {text : List Char} (accepts : rule.pattern.Matches (first :: text))
    (blank_mem : blank ∈ first :: text) (is_gap : blank ∈ gapChars) :
    rule.kind ∈ spacedWords ∨ first ∈ blankStarts := by
  have kinds : ∀ blank ∈ gapChars, ∀ rule ∈ Rule.all, rule.pattern.uses blank = true →
      rule.kind ∈ spacedWords ∨ rule.kind ∈ blankKinds := by
    decide
  by_cases name_start : Rule.isNameStart first = true
  · exact .inl (spaced_of_gap mem accepts name_start blank_mem is_gap).1
  · refine (kinds blank is_gap rule mem (Pattern.uses_of_matches accepts blank_mem)).imp_right ?_
    intro kind_mem
    exact (mem_blankStarts mem kind_mem (Pattern.starts_of_matches accepts)).resolve_left name_start

/-! ## Tokens in brackets -/

/-- The last character of a word is the one that it is written with, unless it is a letter. -/
theorem exists_concat_of_word {word : String} (front : List Char)
    (word_eq : word.toList = front ++ [']']) {text : List Char}
    (accepts : (Rule.word word).Matches text) : ∃ inner, text = inner ++ [']'] := by
  rw [Rule.matches_word, word_eq] at accepts
  obtain ⟨inner, last, rfl, -, last_eq⟩ := List.map_eq_append_iff.1 accepts
  obtain ⟨char, rfl, fold_eq⟩ := List.map_eq_singleton_iff.1 last_eq
  have same := Rule.foldCase_eq_of_not_isLower (fold_eq ▸ rfl : (Rule.foldCase char).isLower = false)
  exact ⟨inner, by rw [← same, fold_eq]⟩

/-- A token that begins with a bracket ends in one, unless it is just that. -/
theorem exists_concat_of_bracket {kind : Kind} {text : List Char}
    (kind_eq : kindOf? ('[' :: text) = some kind) (not_bracket : kind ≠ .leftBracket) :
    ∃ inner, '[' :: text = inner ++ [']'] := by
  have kinds : ∀ rule ∈ Rule.all, rule.pattern.starts '[' = true → rule.kind ≠ .leftBracket →
      rule.kind = .identifier ∨ rule.kind = .sourceKw ∨ rule.kind = .targetKw := by
    decide
  have source_mem : ⟨.sourceKw, .either (Rule.word "[source]") (Rule.word "source")⟩ ∈ Rule.all := by
    simp [Rule.all, Rule.keywordRules]
  have target_mem : ⟨.targetKw, .either (Rule.word "[target]") (Rule.word "target")⟩ ∈ Rule.all := by
    simp [Rule.all, Rule.keywordRules]
  obtain ⟨rule, mem, rfl, accepts⟩ := exists_rule_of_kindOf? kind_eq
  obtain kind_eq | kind_eq | kind_eq :=
    kinds rule mem (Pattern.starts_of_matches accepts) not_bracket
  · rw [Rule.eq_of_kind_eq mem Rule.identifier_mem kind_eq] at accepts
    obtain ⟨first, _, text_eq, -, inner, _, rfl, -, last, rfl, last_eq⟩ | bare := accepts
    · obtain rfl := eq_of_beq last_eq
      exact ⟨first ++ inner, by rw [text_eq, List.append_assoc]⟩
    · cases Pattern.starts_of_matches bare
  · rw [Rule.eq_of_kind_eq mem source_mem kind_eq] at accepts
    obtain bracketed | bare := accepts
    · exact exists_concat_of_word ['[', 's', 'o', 'u', 'r', 'c', 'e'] (by decide) bracketed
    · cases Pattern.starts_of_matches bare
  · rw [Rule.eq_of_kind_eq mem target_mem kind_eq] at accepts
    obtain bracketed | bare := accepts
    · exact exists_concat_of_word ['[', 't', 'a', 'r', 'g', 'e', 't'] (by decide) bracketed
    · cases Pattern.starts_of_matches bare

theorem unextended_of_bracket {kind : Kind} {text : List Char}
    (kind_eq : kindOf? ('[' :: text) = some kind) (not_bracket : kind ≠ .leftBracket)
    (rest : List Char) : Unextended ('[' :: text) rest := by
  have closed : ∀ rule ∈ Rule.all, ∀ branch ∈ rule.pattern.branches,
      branch.starts '[' = true → branch.closedBy ']' = true := by
    decide
  obtain ⟨inner, text_eq⟩ := exists_concat_of_bracket kind_eq not_bracket
  exact unextended_of_closedBy closed text_eq rfl rest

/-! ## Names and words -/

/-- What begins like a name is a name or a word. -/
theorem keyword_or_identifier {rule : Rule} (mem : rule ∈ Rule.all) {first : Char}
    {text : List Char} (accepts : rule.pattern.Matches (first :: text))
    (name_start : Rule.isNameStart first = true) :
    rule ∈ Rule.keywordRules ∨ rule.kind = .identifier := by
  have others : ∀ rule ∈ Rule.markRules ++ Rule.openRules, rule.kind ≠ .identifier →
      ∀ first ∈ wordStarts, Rule.isNameStart first = true → rule.pattern.starts first = false := by
    decide
  rw [Rule.all, List.append_assoc, List.mem_append] at mem
  refine mem.imp_right fun mem => ?_
  refine Decidable.byContradiction fun not_name => ?_
  have not_starts := others rule mem not_name first (mem_wordStarts (.inl name_start)) name_start
  rw [Pattern.starts_of_matches accepts] at not_starts
  cases not_starts

/-- A word accepts the letters of its texts as well. -/
theorem accepted_map_foldCase {rule : Rule} (mem : rule ∈ Rule.keywordRules) {text : List Char}
    (accepts : rule.pattern.Matches text) :
    accepted (alive Rule.keywordRules (text.map Rule.foldCase)) ≠ none := by
  have same : (text.map Rule.foldCase).map Rule.foldCase = text.map Rule.foldCase := by
    rw [List.map_map]
    exact List.map_congr_left fun char _ => Rule.foldCase_foldCase char
  obtain ⟨found, found_eq⟩ :=
    exists_accepted mem ((Rule.isFolded_of_keyword rule mem).matches same accepts)
  rw [found_eq]
  nofun

theorem isLower_of_firstParts : ∀ part ∈ firstParts, ∀ letter ∈ part, letter.isLower = true := by
  decide

/-- A word that a first part begins with is not the whole of it, and ends before a letter of names. -/
theorem letters_of_firstParts : ∀ part ∈ firstParts, ∀ size < part.length + 1,
    accepted (alive Rule.keywordRules (part.take size)) ≠ none →
      size < part.length ∧ ∀ letter ∈ part.take (size + 1),
        letter ∉ Rule.foreignLetters.map Rule.foldCase := by
  decide

theorem isNameStart_of_fold {char : Char} {letters : List Char}
    (lower : ∀ letter ∈ letters, letter.isLower = true)
    (not_foreign : ∀ letter ∈ letters, letter ∉ Rule.foreignLetters.map Rule.foldCase)
    (mem : Rule.foldCase char ∈ letters) : Rule.isNameStart char = true := by
  refine (Rule.isNameStart_or_mem_foreignLetters (lower _ mem)).resolve_right fun foreign => ?_
  exact not_foreign _ mem (List.mem_map_of_mem foreign)

theorem take_map_foldCase (front back : List Char) :
    ((front ++ back).map Rule.foldCase).take front.length = front.map Rule.foldCase := by
  rw [List.map_append, List.take_left' (List.length_map _)]

/-- A word that a first part begins with is made of letters of names, and so is what stands behind
it. -/
theorem exists_next_of_keyword {rule : Rule} (mem : rule ∈ Rule.keywordRules) {text more : List Char}
    (accepts : rule.pattern.Matches text)
    (part_mem : (text ++ more).map Rule.foldCase ∈ firstParts) :
    ∃ next rest, more = next :: rest ∧ ∀ char ∈ text ++ [next], Rule.isNameStart char = true := by
  have size_lt : text.length < ((text ++ more).map Rule.foldCase).length + 1 := by
    rw [List.length_map, List.length_append]
    omega
  obtain ⟨shorter, not_foreign⟩ := letters_of_firstParts _ part_mem text.length size_lt
    (take_map_foldCase text more ▸ accepted_map_foldCase mem accepts)
  cases more with
  | nil => simp at shorter
  | cons next rest =>
      have front_eq := take_map_foldCase (text ++ [next]) rest
      rw [List.append_assoc, List.singleton_append, List.length_append] at front_eq
      refine ⟨next, rest, rfl, fun char char_mem => ?_⟩
      refine isNameStart_of_fold (fun letter letter_mem => ?_) not_foreign
        (front_eq ▸ List.mem_map_of_mem char_mem)
      exact isLower_of_firstParts _ part_mem letter (List.mem_of_mem_take letter_mem)

/-- The characters of a bare name in a word are letters of names. -/
theorem isNameStart_of_bareName {char : Char} {text : List Char}
    (accepts : Rule.bareName.Matches text) (mem : char ∈ text)
    (lower : (Rule.foldCase char).isLower = true) : Rule.isNameStart char = true := by
  have not_used : ∀ char ∈ Rule.foreignLetters, Rule.bareName.uses char = false := by decide
  refine (Rule.isNameStart_or_mem_foreignLetters lower).resolve_right fun foreign => ?_
  have char_uses := Pattern.uses_of_matches accepts mem
  rw [not_used char foreign] at char_uses
  cases char_uses

/-- A token that a first part begins with is made of letters of names.  If it is no name itself, a
further letter of names stands behind it. -/
theorem isNameStart_of_firstParts {kind : Kind} {text more : List Char}
    (kind_eq : kindOf? text = some kind) (part_mem : (text ++ more).map Rule.foldCase ∈ firstParts) :
    (∀ char ∈ text, Rule.isNameStart char = true) ∧
      (kind = .identifier ∨ ∃ next rest, more = next :: rest ∧ Rule.isNameStart next = true) := by
  have heads : ∀ part ∈ firstParts, ∀ letter ∈ part.take 1,
      letter ∉ Rule.foreignLetters.map Rule.foldCase := by
    decide
  have lower := isLower_of_firstParts _ part_mem
  obtain ⟨first, text, rfl⟩ := List.exists_cons_of_ne_nil (ne_nil_of_kindOf? kind_eq)
  have first_start : Rule.isNameStart first = true :=
    isNameStart_of_fold (fun letter mem => lower letter (List.mem_of_mem_take mem))
      (heads _ part_mem) (.head _)
  obtain ⟨rule, mem, rfl, accepts⟩ := exists_rule_of_kindOf? kind_eq
  obtain keyword | name := keyword_or_identifier mem accepts first_start
  · obtain ⟨next, rest, rfl, starts⟩ := exists_next_of_keyword keyword accepts part_mem
    rw [List.forall_mem_append] at starts
    exact ⟨starts.1, .inr ⟨next, rest, rfl, starts.2 next (.head _)⟩⟩
  · obtain rfl := Rule.eq_of_kind_eq mem Rule.identifier_mem name
    have bare := Rule.bareName_of_isNameStart accepts first_start
    refine ⟨fun char char_mem => isNameStart_of_bareName bare char_mem ?_, .inl name⟩
    exact lower _ (List.mem_map_of_mem (List.mem_append_left more char_mem))

/-- No word begins like a later part. -/
theorem no_keyword_of_laterParts : ∀ part ∈ laterParts,
    (alive Rule.keywordRules part).isEmpty = true ∧ ∀ size < part.length + 1,
      accepted (alive Rule.keywordRules (part.take size)) = none := by
  decide

/-- A token at a later part is a name. -/
theorem identifier_of_laterPart {kind : Kind} {part more text behind : List Char}
    (part_mem : part.map Rule.foldCase ∈ laterParts) (text_eq : part ++ more = text ++ behind)
    (kind_eq : kindOf? text = some kind) : kind = .identifier := by
  have heads : ∀ part ∈ laterParts, part ≠ [] ∧ ∀ letter ∈ part.take 1,
      letter.isLower = true ∧ letter ∉ Rule.foreignLetters.map Rule.foldCase := by
    decide
  obtain ⟨part_not_nil, head_letter⟩ := heads _ part_mem
  obtain ⟨first, text, rfl⟩ := List.exists_cons_of_ne_nil (ne_nil_of_kindOf? kind_eq)
  have first_start : Rule.isNameStart first = true := by
    obtain ⟨other, part, rfl⟩ := List.exists_cons_of_ne_nil (mt (congrArg _) part_not_nil)
    obtain ⟨rfl, -⟩ := List.cons.inj text_eq
    exact isNameStart_of_fold (fun letter mem => (head_letter letter mem).1)
      (fun letter mem => (head_letter letter mem).2) (.head _)
  obtain ⟨rule, mem, rfl, accepts⟩ := exists_rule_of_kindOf? kind_eq
  refine (keyword_or_identifier mem accepts first_start).resolve_left fun keyword => ?_
  obtain ⟨dead, rejected⟩ := no_keyword_of_laterParts _ part_mem
  refine accepted_map_foldCase keyword accepts ?_
  obtain ⟨tail, text_eq, -⟩ | ⟨tail, rfl, -⟩ := List.append_eq_append_iff.1 text_eq
  · rw [text_eq, List.map_append, alive_append, List.isEmpty_iff.1 dead, alive_of_nil]
    rfl
  · rw [← take_map_foldCase (first :: text) tail]
    refine rejected _ ?_
    rw [List.length_map, List.length_append]
    omega

/-! ## Other blanks behind a token -/

/-- The kinds that stand behind no name. -/
def notBehindName : KindSet := .ofList [.identifier, .selectKw, .sourceKw]

/-- The kinds that no query has. -/
def straying : KindSet := .ofList [.leftBracket, .openString, .unrecognized]

/-- Up to its first blank the second text is a start of the first. -/
def SameFront (rest rest' : List Char) : Prop :=
  ∀ front back, rest' = front ++ back → (∀ char ∈ front, char ∉ gapChars) →
    ∃ back, rest = front ++ back

/-- Behind blanks or none the text goes on with a token that may stand behind a name. -/
def FollowsName (rest : List Char) : Prop :=
  ∀ gap first more, rest = gap ++ first :: more → (∀ char ∈ gap, char ∈ gapChars) →
    first ∉ gapChars → ∃ text behind kind, first :: more = text ++ behind ∧
      kindOf? text = some kind ∧ kind ∉ notBehindName

section

variable {kind : Kind} {text rest rest' : List Char}

theorem FollowsName.not_startsLaterPart (follows : FollowsName rest) {blank : Char}
    {more behind : List Char} (is_gap : blank ∈ gapChars) (rest_eq : rest = blank :: more ++ behind) :
    ¬ StartsLaterPart more := by
  have heads : ∀ part ∈ laterParts, part ≠ [] ∧
      ∀ letter ∈ part.take 1, letter ∉ gapChars.map Rule.foldCase := by
    decide
  rintro ⟨gap, part, after, rfl, only_gap, part_mem⟩
  obtain ⟨part_not_nil, head_no_gap⟩ := heads _ part_mem
  obtain ⟨first, part, rfl⟩ := List.exists_cons_of_ne_nil (mt (congrArg _) part_not_nil)
  obtain ⟨text, rest, kind, text_eq, kind_eq, not_behind⟩ :=
    follows (blank :: gap) first (part ++ (after ++ behind)) (by simp [rest_eq])
      (List.forall_mem_cons.2
        ⟨is_gap, fun char mem => mem_gapChars_of_isGap (only_gap char mem)⟩)
      fun mem => head_no_gap _ (.head _) (List.mem_map_of_mem mem)
  rw [identifier_of_laterPart part_mem text_eq kind_eq] at not_behind
  exact not_behind (by decide)

theorem FollowsName.not_foreign (follows : FollowsName rest) {next : Char} {more : List Char}
    (rest_eq : rest = next :: more) : next ∉ Rule.foreignLetters := by
  have kinds : ∀ char ∈ Rule.foreignLetters, char ∉ gapChars ∧ ∀ rule ∈ Rule.all,
      rule.pattern.starts char = true → rule.kind ∈ notBehindName := by
    decide
  intro foreign
  obtain ⟨not_gap, kind_mem⟩ := kinds next foreign
  obtain ⟨text, behind, kind, text_eq, kind_eq, not_behind⟩ := follows [] next more rest_eq nofun not_gap
  obtain ⟨first, text, rfl⟩ := List.exists_cons_of_ne_nil (ne_nil_of_kindOf? kind_eq)
  obtain ⟨rfl, -⟩ := List.cons.inj text_eq
  obtain ⟨rule, mem, rfl, accepts⟩ := exists_rule_of_kindOf? kind_eq
  exact not_behind (kind_mem rule mem (Pattern.starts_of_matches accepts))

/-- What has no blank is read behind a token as it was. -/
theorem SameFront.not_matches (same_front : SameFront rest rest') (unextended : Unextended text rest)
    {more behind : List Char} (rest_eq : rest' = more ++ behind) (not_nil : more ≠ [])
    (no_gap : ¬ ∃ blank ∈ more, blank ∈ gapChars) {rule : Rule} (mem : rule ∈ Rule.all) :
    ¬ rule.pattern.Matches (text ++ more) := by
  intro accepts
  obtain ⟨tail, tail_eq⟩ := same_front more behind rest_eq fun char mem is_gap =>
    no_gap ⟨char, mem, is_gap⟩
  obtain ⟨found, found_eq⟩ := exists_accepted mem accepts
  have none_eq := unextended more tail tail_eq not_nil
  rw [kindOf?, found_eq] at none_eq
  cases none_eq

theorem exists_first_gap (has_gap : ∃ blank ∈ text, blank ∈ gapChars) :
    ∃ front blank back, text = front ++ blank :: back ∧ blank ∈ gapChars ∧
      ∀ char ∈ front, char ∉ gapChars := by
  have isSome := List.find?_isSome.2 (by simpa using has_gap :
    ∃ blank ∈ text, gapChars.contains blank = true)
  obtain ⟨blank, found⟩ := Option.isSome_iff_exists.1 isSome
  obtain ⟨is_gap, front, back, text_eq, front_no_gap⟩ := List.find?_eq_some_iff_append.1 found
  exact ⟨front, blank, back, text_eq, by simpa using is_gap, by simpa using front_no_gap⟩

/-- What begins like a name has no blanks, unless it is a word of several parts. -/
theorem no_gap_of_not_spaced {first : Char} (kind_eq : kindOf? (first :: text) = some kind)
    (not_spaced : kind ∉ spacedWords) (name_start : Rule.isNameStart first = true) :
    ∀ char ∈ first :: text, char ∉ gapChars := by
  intro char char_mem is_gap
  obtain ⟨rule, mem, rfl, accepts⟩ := exists_rule_of_kindOf? kind_eq
  exact not_spaced (spaced_of_gap mem accepts name_start char_mem is_gap).1

/-- No token becomes a word of several parts over the blank behind it. -/
theorem not_spaced_of_gap (kind_eq : kindOf? text = some kind) (not_spaced : kind ∉ spacedWords)
    (unextended : Unextended text rest) (same_front : SameFront rest rest')
    (follows : kind = .identifier → FollowsName rest') {rule : Rule} (mem : rule ∈ Rule.all)
    (kind_mem : rule.kind ∈ spacedWords) {more behind : List Char} (rest_eq : rest' = more ++ behind)
    (has_gap : ∃ blank ∈ more, blank ∈ gapChars) : ¬ rule.pattern.Matches (text ++ more) := by
  intro accepts
  obtain ⟨front, blank, back, rfl, blank_mem, front_no_gap⟩ := exists_first_gap has_gap
  obtain ⟨first, text, rfl⟩ := List.exists_cons_of_ne_nil (ne_nil_of_kindOf? kind_eq)
  have name_start := isNameStart_of_spaced mem kind_mem accepts
  have is_gap := (spaced_of_gap mem accepts name_start (by simp) blank_mem).2
  have no_gap : ∀ char ∈ first :: text ++ front, Rule.isGap char = false := by
    have none_gap := List.forall_mem_append.2
      ⟨no_gap_of_not_spaced kind_eq not_spaced name_start, front_no_gap⟩
    exact fun char mem => Bool.eq_false_iff.2 fun is_gap =>
      none_gap char mem (mem_gapChars_of_isGap is_gap)
  rw [← List.append_assoc] at accepts
  obtain ⟨part_mem, later⟩ := isSpaced_of_mem mem kind_mem _ _ _ is_gap no_gap accepts
  obtain ⟨text_starts, choice⟩ := isNameStart_of_firstParts kind_eq part_mem
  cases front with
  | nil =>
      obtain named | ⟨_, _, ⟨⟩, -⟩ := choice
      exact (follows named).not_startsLaterPart blank_mem rest_eq later
  | cons next front =>
      have next_start : Rule.isNameStart next = true := by
        obtain named | ⟨_, _, ⟨⟩, next_start⟩ := choice
        · have lower := isLower_of_firstParts _ part_mem _
            (List.mem_map_of_mem (List.mem_append_right _ (.head _)))
          exact (Rule.isNameStart_or_mem_foreignLetters lower).resolve_right
            ((follows named).not_foreign rest_eq)
        · exact next_start
      -- So the token could have been read on as a name.
      have starts : ∀ char ∈ first :: text ++ [next], Rule.isNameStart char = true :=
        List.forall_mem_append.2 ⟨text_starts, by simpa using next_start⟩
      have no_gap : ¬ ∃ blank ∈ [next], blank ∈ gapChars := by
        simpa using front_no_gap next (.head _)
      have next_eq : rest' = [next] ++ (front ++ blank :: back ++ behind) := rest_eq
      refine same_front.not_matches unextended next_eq (List.cons_ne_nil next []) no_gap
        Rule.identifier_mem (.inr (Rule.matches_bareName (starts first (.head _)) fun char mem => ?_))
      exact Rule.isNameRest_of_isNameStart (starts char (.tail _ mem))

/-- A quote that the second text begins with is one that the first begins with. -/
def SameQuote (rest rest' : List Char) : Prop :=
  ∀ quote ∈ ['\'', '"'], ∀ more, rest' = quote :: more → ∃ tail, rest = quote :: tail

theorem SameFront.sameQuote (same_front : SameFront rest rest') : SameQuote rest rest' := by
  have no_gap : ∀ quote ∈ ['\'', '"'], quote ∉ gapChars := by decide
  intro quote quote_mem more rest_eq
  exact same_front [quote] more rest_eq (by simpa using no_gap quote quote_mem)

theorem unextended_string_of_sameQuote (kind_eq : kindOf? text = some .string)
    (unextended : Unextended text rest) (same_quote : SameQuote rest rest') :
    Unextended text rest' := by
  obtain ⟨quote, quote_mem, alive_eq⟩ := exists_quotedRules kind_eq
  cases rest' with
  | nil => exact unextended_nil _
  | cons next rest' =>
      refine unextended_closed alive_eq ?_ rest'
      rintro rfl
      -- A quote behind it would have opened the literal again.
      obtain ⟨tail, tail_eq⟩ := same_quote next quote_mem rest' rfl
      have none_eq := unextended [next] tail tail_eq nofun
      rw [kindOf?, alive_append, alive_eq, alive_cons, advance_quotedRules, if_pos rfl] at none_eq
      cases none_eq

theorem unextended_of_blankStarts {first : Char} (first_mem : first ∈ blankStarts)
    (kind_eq : kindOf? (first :: text) = some kind) (not_trivia : kind.isTrivia = false)
    (not_straying : kind ∉ straying) (unextended : Unextended (first :: text) rest)
    (same_quote : SameQuote rest rest') : Unextended (first :: text) rest' := by
  have quoted_kinds : ∀ quote ∈ ['\'', '"'], ∀ rule ∈ Rule.all, rule.pattern.starts quote = true →
      rule.kind ∉ straying → rule.kind = .string := by
    decide
  have mem_cases : ∀ char ∈ blankStarts, char ∈ ['\'', '"'] ∨ char = '[' ∨ char ∈ gapChars := by
    decide
  obtain is_quote | rfl | is_gap := mem_cases first first_mem
  · obtain ⟨rule, mem, rfl, accepts⟩ := exists_rule_of_kindOf? kind_eq
    rw [quoted_kinds first is_quote rule mem (Pattern.starts_of_matches accepts) not_straying]
      at kind_eq
    exact unextended_string_of_sameQuote kind_eq unextended same_quote
  · exact unextended_of_bracket kind_eq (fun bracket => not_straying (bracket ▸ by decide)) rest'
  · exact absurd is_gap (not_gap_of_kindOf? kind_eq not_trivia)

/-- A token that has no blanks of its own to change stays as it is before other blanks. -/
theorem unextended_of_sameFront (kind_eq : kindOf? text = some kind)
    (not_trivia : kind.isTrivia = false) (not_straying : kind ∉ straying)
    (not_spaced : kind ∉ spacedWords) (unextended : Unextended text rest)
    (same_front : SameFront rest rest') (follows : kind = .identifier → FollowsName rest') :
    Unextended text rest' := by
  obtain ⟨first, text, rfl⟩ := List.exists_cons_of_ne_nil (ne_nil_of_kindOf? kind_eq)
  by_cases first_mem : first ∈ blankStarts
  · exact unextended_of_blankStarts first_mem kind_eq not_trivia not_straying unextended
      same_front.sameQuote
  intro more behind rest_eq not_nil
  refine kindOf?_eq_none fun rule mem accepts => ?_
  by_cases has_gap : ∃ blank ∈ more, blank ∈ gapChars
  · obtain ⟨blank, blank_mem, is_gap⟩ := has_gap
    have kind_mem := (spaced_or_blankStarts mem accepts (List.mem_append_right (first :: text) blank_mem)
      is_gap).resolve_right first_mem
    exact not_spaced_of_gap kind_eq not_spaced unextended same_front follows mem kind_mem rest_eq
      ⟨blank, blank_mem, is_gap⟩ accepts
  · exact same_front.not_matches unextended rest_eq not_nil has_gap mem accepts

/-- Nothing can be added to a word of several parts, whatever its blanks are. -/
theorem unextended_reblanked (kind_eq : kindOf? text = some kind) (kind_mem : kind ∈ spacedWords)
    (unextended : Unextended text rest) (same_front : SameFront rest rest') {text' : List Char}
    (reblanked : Reblanked text text') : Unextended text' rest' := by
  intro more behind rest_eq not_nil
  refine kindOf?_eq_none fun rule mem accepts => ?_
  obtain ⟨own, own_mem, rfl, own_accepts⟩ :=
    exists_rule_of_kindOf? (kindOf?_reblanked kind_eq kind_mem reblanked)
  by_cases has_gap : ∃ blank ∈ text' ++ more, blank ∈ gapChars
  · obtain ⟨blank, blank_mem, is_gap⟩ := has_gap
    obtain ⟨first, text', rfl⟩ := List.exists_cons_of_ne_nil
      (ne_nil_of_kindOf? (kindOf?_reblanked kind_eq kind_mem reblanked))
    have name_start := isNameStart_of_spaced own_mem kind_mem own_accepts
    have other_mem := (spaced_of_gap mem accepts name_start blank_mem is_gap).1
    exact not_nil (eq_nil_of_spaced own_mem mem kind_mem other_mem own_accepts accepts).2
  · have same_text : text' = text := reblanked.eq_of_no_gap fun char char_mem =>
      Bool.eq_false_iff.2 fun is_gap => has_gap
        ⟨char, List.mem_append_left more char_mem, mem_gapChars_of_isGap is_gap⟩
    have no_gap : ¬ ∃ blank ∈ more, blank ∈ gapChars := fun ⟨blank, blank_mem, is_gap⟩ =>
      has_gap ⟨blank, List.mem_append_right text' blank_mem, is_gap⟩
    rw [same_text] at accepts
    exact same_front.not_matches unextended rest_eq not_nil no_gap mem accepts

end

end Lexer
end WorkItemQuery
