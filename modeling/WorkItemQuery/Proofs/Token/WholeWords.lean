import WorkItemQuery.Proofs.Token.Literals
import WorkItemQuery.Proofs.Token.Respaced

/-!
# Whole words

A word that is written with characters of names alone is read only where no further one stands
behind it, since a name would be longer.  No name has a blank, the long s or the Kelvin sign.  So a
word with one of them inside is read in front of anything.
-/

namespace WorkItemQuery
namespace Lexer

variable {kind : Kind} {rule other : Rule} {text more : List Char}

/-! ## The letters of words -/

/-- The spellings of a word in small letters and without blanks, with its brackets and without. -/
def spellingsOf (kind : Kind) : List (List Char) :=
  [squeezedWord kind, (squeezedWord kind).filter fun char => char != '[' && char != ']']

/-- The spellings of all words. -/
def wordSpellings : List (List Char) := Rule.keywordRules.flatMap fun rule => spellingsOf rule.kind

theorem mem_spellingsOf : ∀ rule ∈ Rule.keywordRules, rule.kind ∉ spacedWords → ∀ text,
    rule.pattern.Matches text → text.map Rule.foldCase ∈ spellingsOf rule.kind := by
  simp only [Rule.keywordRules, List.forall_mem_cons, Pattern.Matches, Rule.matches_word,
    List.not_mem_nil, false_implies, implies_true, and_true]
  and_intros
  -- The words of several parts, the words of one spelling, and the sides of links.
  all_goals try exact fun not_spaced => absurd (by decide) not_spaced
  all_goals try (intro _ text accepts; rw [accepts]; decide)
  all_goals (rintro _ text (accepts | accepts) <;> rw [accepts] <;> decide)

theorem no_gap_of_keyword (mem : rule ∈ Rule.keywordRules) (not_spaced : rule.kind ∉ spacedWords)
    (accepts : rule.pattern.Matches text) : ∀ char ∈ text, Rule.isGap char = false := by
  have no_gap : ∀ rule ∈ Rule.keywordRules, rule.kind ∉ spacedWords →
      ∀ blank ∈ innerBlanks, rule.pattern.uses blank = false := by
    decide
  intro char char_mem
  rw [Bool.eq_false_iff]
  intro is_gap
  have char_uses := Pattern.uses_of_matches accepts char_mem
  rw [no_gap rule mem not_spaced char (mem_innerBlanks is_gap)] at char_uses
  cases char_uses

theorem mem_all_of_keyword (mem : rule ∈ Rule.keywordRules) : rule ∈ Rule.all :=
  List.mem_append_left _ (List.mem_append_left _ mem)

/-- A word has one of its spellings but for its blanks, and does not end in a blank. -/
theorem squeezed_mem_wordSpellings (mem : rule ∈ Rule.keywordRules)
    (accepts : rule.pattern.Matches text) : (squeezed text).map Rule.foldCase ∈ wordSpellings ∧
      ∀ last ∈ text.getLast?, Rule.isGap last = false := by
  by_cases spaced : rule.kind ∈ spacedWords
  · obtain ⟨text_eq, front, last, rfl, not_gap⟩ :=
      isSqueezed_of_mem (mem_all_of_keyword mem) spaced text accepts
    refine ⟨List.mem_flatMap.2 ⟨rule, mem, text_eq ▸ .head _⟩, ?_⟩
    simpa using not_gap
  · have no_gap := no_gap_of_keyword mem spaced accepts
    rw [squeezed_of_no_gap no_gap]
    exact ⟨List.mem_flatMap.2 ⟨rule, mem, mem_spellingsOf rule mem spaced text accepts⟩,
      fun last last_eq => no_gap last (List.mem_of_getLast? last_eq)⟩

/-- No word begins another one, but for `OR` at the beginning of `ORDER BY`. -/
theorem eq_of_wordSpellings : ∀ front ∈ wordSpellings, ∀ whole ∈ wordSpellings,
    front <+: whole → front = whole ∨ front = ['o', 'r'] := by
  decide +kernel

/-- What is spelled like `OR` has letters of names only. -/
theorem isNameStart_of_or (mem : rule ∈ Rule.keywordRules) (accepts : rule.pattern.Matches text)
    (is_or : (squeezed text).map Rule.foldCase = ['o', 'r']) :
    ∀ char ∈ text, Rule.isNameStart char = true := by
  have not_or : ∀ kind ∈ spacedWords, squeezedWord kind ≠ ['o', 'r'] := by decide
  have not_spaced : rule.kind ∉ spacedWords := by
    intro spaced
    obtain ⟨text_eq, -⟩ := isSqueezed_of_mem (mem_all_of_keyword mem) spaced text accepts
    exact not_or _ spaced (text_eq.symm.trans is_or)
  rw [squeezed_of_no_gap (no_gap_of_keyword mem not_spaced accepts)] at is_or
  intro char char_mem
  have letter_mem : Rule.foldCase char ∈ ['o', 'r'] := is_or ▸ List.mem_map_of_mem char_mem
  exact isNameStart_of_fold (by decide) (by decide) letter_mem

/-- A word that is not spelled like `OR` begins no other word. -/
theorem eq_nil_of_keyword (mem : rule ∈ Rule.keywordRules) (other_mem : other ∈ Rule.keywordRules)
    (accepts : rule.pattern.Matches text) (other_accepts : other.pattern.Matches (text ++ more))
    (not_or : (squeezed text).map Rule.foldCase ≠ ['o', 'r']) : more = [] := by
  obtain ⟨front_mem, -⟩ := squeezed_mem_wordSpellings mem accepts
  obtain ⟨whole_mem, not_gap⟩ := squeezed_mem_wordSpellings other_mem other_accepts
  rw [squeezed_append, List.map_append] at whole_mem
  have same := (eq_of_wordSpellings _ front_mem _ whole_mem ⟨_, rfl⟩).resolve_right not_or
  -- So there are only blanks behind the word, but a word does not end in one.
  have no_letters := List.self_eq_append_right.1 same
  rw [List.map_eq_nil_iff, squeezed, List.filter_eq_nil_iff] at no_letters
  obtain rfl | ⟨inner, last, rfl⟩ := List.eq_nil_or_concat more
  · rfl
  · exact absurd (not_gap last (by simp)) (by simpa using no_letters last (by simp))

/-! ## What stands behind a word -/

theorem exists_keyword_of_kindOf? (kind_eq : kindOf? text = some kind)
    (is_keyword : kind.isKeyword = true) :
    ∃ rule ∈ Rule.keywordRules, rule.kind = kind ∧ rule.pattern.Matches text := by
  have no_keyword : ∀ rule ∈ Rule.markRules ++ Rule.openRules, rule.kind.isKeyword = false := by
    decide
  obtain ⟨rule, mem, rfl, accepts⟩ := exists_rule_of_kindOf? kind_eq
  rw [Rule.all, List.append_assoc, List.mem_append] at mem
  refine ⟨rule, mem.resolve_right fun mem => ?_, rfl, accepts⟩
  rw [no_keyword rule mem] at is_keyword
  cases is_keyword

/-- A word of characters of names does not begin with a digit. -/
theorem isNameStart_of_keyword (mem : rule ∈ Rule.keywordRules) {first : Char}
    (accepts : rule.pattern.Matches (first :: text)) (is_name : Rule.isNameRest first = true) :
    Rule.isNameStart first = true := by
  have no_digit : ∀ rule ∈ Rule.keywordRules, ∀ first ∈ wordStarts,
      rule.pattern.starts first = true → Rule.isNameStart first = true := by
    decide
  have name_cases : Rule.isNameStart first = true ∨ first.isDigit = true := by
    simp only [Rule.isNameRest, Char.isAlphanum, Rule.isNameStart, Bool.or_eq_true] at is_name ⊢
    exact or_right_comm.1 is_name
  refine no_digit rule mem first (mem_wordStarts ?_) (Pattern.starts_of_matches accepts)
  exact name_cases.imp_right .inl

/-- Behind a word of characters of names stands no further one. -/
theorem not_isNameRest_of_keyword (kind_eq : kindOf? text = some kind)
    (is_keyword : kind.isKeyword = true) (names : ∀ char ∈ text, Rule.isNameRest char = true)
    {rest : List Char} (unextended : Unextended text rest) :
    ∀ next ∈ rest.head?, Rule.isNameRest next = false := by
  intro next head_eq
  obtain ⟨more, rfl⟩ := List.head?_eq_some_iff.1 head_eq
  obtain ⟨rule, mem, -, accepts⟩ := exists_keyword_of_kindOf? kind_eq is_keyword
  obtain ⟨first, text, rfl⟩ := List.exists_cons_of_ne_nil (ne_nil_of_kindOf? kind_eq)
  rw [Bool.eq_false_iff]
  intro is_name
  have name_accepts : Rule.bareName.Matches (first :: (text ++ [next])) := by
    refine Rule.matches_bareName (isNameStart_of_keyword mem accepts (names first (.head _))) ?_
    refine List.forall_mem_append.2 ⟨fun char mem => names char (.tail _ mem), ?_⟩
    simpa using is_name
  have none_eq := unextended [next] more rfl nofun
  obtain ⟨found, found_eq⟩ := exists_accepted Rule.identifier_mem (.inr name_accepts)
  rw [List.cons_append, kindOf?, found_eq] at none_eq
  cases none_eq

/-- A word begins with a letter or a bracket. -/
theorem head_of_keyword (mem : rule ∈ Rule.keywordRules) {first : Char}
    (accepts : rule.pattern.Matches (first :: text)) :
    Rule.isNameStart first = true ∨ first ∈ Rule.foreignLetters ∨ first = '[' := by
  have no_blank : ∀ rule ∈ Rule.keywordRules, ∀ blank ∈ innerBlanks,
      rule.pattern.starts blank = false := by
    decide
  have heads : ∀ word ∈ wordSpellings, ∀ head ∈ word.head?, head.isLower = true ∨ head = '[' := by
    decide
  have not_gap : Rule.isGap first = false := by
    rw [Bool.eq_false_iff]
    intro is_gap
    have starts := Pattern.starts_of_matches accepts
    rw [no_blank rule mem first (mem_innerBlanks is_gap)] at starts
    cases starts
  obtain ⟨spelled, -⟩ := squeezed_mem_wordSpellings mem accepts
  rw [squeezed, List.filter_cons_of_pos (by rw [not_gap]; rfl), List.map_cons] at spelled
  obtain is_letter | is_bracket := heads _ spelled _ rfl
  · exact (Rule.isNameStart_or_mem_foreignLetters is_letter).imp_right .inl
  · have same := Rule.foldCase_eq_of_not_isLower (is_bracket ▸ rfl :
      (Rule.foldCase first).isLower = false)
    exact .inr (.inr (same.symm.trans is_bracket))

/-- What begins like a word with something inside that names do not have is a word, unless it is in
brackets. -/
theorem keyword_of_foreign {own : Rule} (own_mem : own ∈ Rule.keywordRules) {first : Char}
    (own_accepts : own.pattern.Matches (first :: text)) (no_bracket : first ≠ '[')
    (foreign : ∃ char ∈ first :: text, Rule.isNameRest char = false) (mem : rule ∈ Rule.all)
    (accepts : rule.pattern.Matches (first :: text ++ more)) : rule ∈ Rule.keywordRules := by
  have no_dot : ∀ rule ∈ Rule.keywordRules, rule.pattern.uses '.' = false := by decide
  have others : ∀ char ∈ Rule.foreignLetters, ∀ rule ∈ Rule.markRules ++ Rule.openRules,
      rule.pattern.starts char = false := by
    decide
  obtain name_start | foreign_mem | is_bracket := head_of_keyword own_mem own_accepts
  · refine (keyword_or_identifier mem accepts name_start).resolve_right fun is_name => ?_
    obtain rfl := Rule.eq_of_kind_eq mem Rule.identifier_mem is_name
    obtain ⟨char, char_mem, not_name⟩ := foreign
    obtain bracketed | bare := accepts
    · have starts := Pattern.starts_of_matches bracketed
      refine no_bracket ?_
      simpa [Pattern.starts, Rule.bracketedName, Pattern.exactly, Pattern.nullable] using starts
    · obtain rfl := Rule.eq_dot_of_bareName bare (List.mem_append_left more char_mem) not_name
      have dot_uses := Pattern.uses_of_matches own_accepts char_mem
      rw [no_dot own own_mem] at dot_uses
      cases dot_uses
  · rw [Rule.all, List.append_assoc, List.mem_append] at mem
    refine mem.resolve_right fun mem => ?_
    have starts := Pattern.starts_of_matches accepts
    rw [others first foreign_mem rule mem] at starts
    cases starts
  · exact absurd is_bracket no_bracket

/-- A word with something inside that names do not have is read in front of anything. -/
theorem unextended_of_foreign (kind_eq : kindOf? text = some kind)
    (is_keyword : kind.isKeyword = true)
    (foreign : ∃ char ∈ text, Rule.isNameRest char = false) (rest : List Char) :
    Unextended text rest := by
  obtain ⟨own, own_mem, rfl, own_accepts⟩ := exists_keyword_of_kindOf? kind_eq is_keyword
  obtain ⟨first, text, rfl⟩ := List.exists_cons_of_ne_nil (ne_nil_of_kindOf? kind_eq)
  by_cases is_bracket : first = '['
  · subst is_bracket
    refine unextended_of_bracket kind_eq (fun bracket => ?_) rest
    rw [bracket] at is_keyword
    cases is_keyword
  · intro more behind rest_eq not_nil
    refine kindOf?_eq_none fun rule mem accepts => not_nil ?_
    have rule_mem := keyword_of_foreign own_mem own_accepts is_bracket foreign mem accepts
    refine eq_nil_of_keyword own_mem rule_mem own_accepts accepts fun is_or => ?_
    obtain ⟨char, char_mem, not_name⟩ := foreign
    rw [Rule.isNameRest_of_isNameStart (isNameStart_of_or own_mem own_accepts is_or char char_mem)]
      at not_name
    cases not_name

/-! ## Texts -/

/-- Nothing that stands behind a token could be added to it. -/
theorem Lexes.exists_unextended {offset : Nat} {text : List Char} {tokens : List Token}
    (lexes : Lexes offset text tokens) {token : Token} (mem : token ∈ tokens)
    (known : token.kind ≠ .unrecognized) :
    ∃ front back, text = front ++ token.text.toList ++ back ∧
      token.offset = offset + bytes front ∧ Unextended token.text.toList back := by
  -- What has been read is put in front of what is found behind it.
  have behind : ∀ {offset length : Nat} {text : List Char},
      (∃ front back, text.drop length = front ++ token.text.toList ++ back ∧
        token.offset = offset + bytes (text.take length) + bytes front ∧
        Unextended token.text.toList back) →
      ∃ front back, text = front ++ token.text.toList ++ back ∧
        token.offset = offset + bytes front ∧ Unextended token.text.toList back := by
    rintro offset length text ⟨front, back, text_eq, offset_eq, unextended⟩
    refine ⟨text.take length ++ front, back, ?_, ?_, unextended⟩
    · rw [List.append_assoc, List.append_assoc, ← List.append_assoc front, ← text_eq,
        List.take_append_drop]
    · rw [offset_eq, bytes_append, Nat.add_assoc]
  induction lexes with
  | done => cases mem
  | blank offset text kind length tokens munch is_trivia lexes ih => exact behind (ih mem)
  | token offset text kind length first tokens munch not_trivia is_token lexes ih =>
      obtain _ | ⟨_, mem⟩ := mem
      · refine ⟨[], text.drop length, ?_, is_token.offset_eq, ?_⟩ <;>
          rw [is_token.text_eq, String.toList_ofList]
        · exact (List.take_append_drop length text).symm
        · exact munch.unextended
      · exact behind (ih mem)
  | failures offset text length first tokens failures goes_on is_token lexes ih =>
      obtain _ | ⟨_, mem⟩ := mem
      · exact absurd is_token.kind_eq known
      · exact behind (ih mem)

end Lexer

open Lexer

/-- A letter, a digit or an underscore stands directly behind a word of a text only if the word has
a character inside that names do not have.  And every such word is read as it is, whatever stands
behind it. -/
theorem keywords_whole_unless_foreign (source : String) :
    ∀ token ∈ tokenize source, token.kind.isKeyword = true →
      ∃ front back, source = front ++ token.text ++ back ∧
        token.span.start = front.utf8ByteSize ∧
        ((∀ char ∈ token.text.toList, Rule.isNameRest char = true) →
          ∀ next ∈ back.toList.head?, Rule.isNameRest next = false) ∧
        ((∃ char ∈ token.text.toList, Rule.isNameRest char = false) →
          ∀ rest : String, ∃ first tokens, tokenize (token.text ++ rest) = first :: tokens ∧
            first.kind = token.kind ∧ first.span = .sized 0 token.text.utf8ByteSize ∧
              first.text = token.text) := by
  intro token token_mem is_keyword
  obtain ⟨init, final, tokens_eq, is_list, lexed⟩ := exists_tokenize_eq source
  have init_mem : token ∈ init := by
    rw [tokens_eq, List.mem_append, List.mem_singleton] at token_mem
    refine token_mem.resolve_right ?_
    rintro rfl
    rw [is_list.final_kind] at is_keyword
    cases is_keyword
  have known : token.kind ≠ .unrecognized := by
    intro kind_eq
    rw [kind_eq] at is_keyword
    cases is_keyword
  have not_trivia : ∀ kind : Kind, kind.isKeyword = true → kind.isTrivia = false := by decide
  have kind_eq := (lexed token init_mem).kind_eq.resolve_left known
  obtain ⟨front, back, source_eq, offset_eq, unextended⟩ :=
    (lexes_of_tokenize tokens_eq).exists_unextended init_mem known
  refine ⟨.ofList front, .ofList back, ?_, offset_eq.trans (Nat.zero_add _), fun names => ?_,
    fun foreign rest => ?_⟩
  · rw [← String.toList_inj, source_eq]
    simp
  · rw [String.toList_ofList]
    exact not_isNameRest_of_keyword kind_eq is_keyword names unextended
  · exact tokenize_append kind_eq (not_trivia token.kind is_keyword)
      (unextended_of_foreign kind_eq is_keyword foreign rest.toList)

/-- In front of a longer word that begins with it, a word is read up to the blank. -/
theorem select_whole :
    ⟨⟨.selectKw, 1, 1, 0, "select"⟩, []⟩ ∈ tokenize "select selection" ∧
      ∃ front back, "select selection" = front ++ "select" ++ back ∧ 0 = front.utf8ByteSize ∧
        ∀ next ∈ back.toList.head?, Rule.isNameRest next = false := by
  have mem : ⟨⟨.selectKw, 1, 1, 0, "select"⟩, []⟩ ∈ tokenize "select selection" := by decide
  obtain ⟨front, back, source_eq, start_eq, whole, -⟩ :=
    keywords_whole_unless_foreign "select selection" _ mem rfl
  exact ⟨mem, front, back, source_eq, start_eq, whole (by decide)⟩

/-- A word of two parts is read where a longer word begins with its second part. -/
theorem order_by_cut_off :
    ¬ ∀ source, ∀ token ∈ tokenize source, token.kind.isKeyword = true →
      ∀ front back : String, source = front ++ token.text ++ back →
        token.span.start = front.utf8ByteSize →
          (∃ last ∈ token.text.toList.getLast?, last.isAlpha = true) →
            ∀ next ∈ back.toList.head?, Rule.isNameRest next = false := by
  intro holds
  have mem : ⟨⟨.orderByKw, 1, 1, 0, "ORDER BY"⟩, []⟩ ∈ tokenize "ORDER BYLINE" := by decide
  exact absurd (holds _ _ mem rfl "" "LINE" rfl rfl ⟨'Y', rfl, rfl⟩ 'L' rfl) (by decide)

end WorkItemQuery
