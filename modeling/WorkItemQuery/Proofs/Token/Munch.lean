import WorkItemQuery.Proofs.Token.Delimiters

/-!
# What the rules say of a text

At every point of a text the longest start that some rule accepts is read, by the first of the rules
that accept it.  Where no rule accepts any start, reading goes on only as far as some rule could
still be completed.
-/

namespace WorkItemQuery

namespace Pattern

/-- The characters that show that the tests of the rules can be passed. -/
def samples : List Char := "abcdefghijklmnopqrstuvwxyz0 \r\n'\"@.,=<>!-+()[]".toList

/-- No part of the pattern is without a text. -/
def isLive : Pattern → Bool
  | .never => false
  | .done => true
  | .one accepts => samples.any accepts
  | .either left right => left.isLive && right.isLive
  | .andThen first second => first.isLive && second.isLive
  | .many inner => inner.isLive

theorem exists_matches_of_isLive {pattern : Pattern} (live : pattern.isLive = true) :
    ∃ text, pattern.Matches text := by
  induction pattern with
  | never => cases live
  | done => exact ⟨[], rfl⟩
  | one accepts =>
      obtain ⟨char, -, accepted⟩ := List.any_eq_true.1 live
      exact ⟨[char], char, rfl, accepted⟩
  | either left right left_ih right_ih =>
      obtain ⟨text, accepts⟩ := left_ih (Bool.and_eq_true_iff.1 live).1
      exact ⟨text, .inl accepts⟩
  | andThen first second first_ih second_ih =>
      obtain ⟨first_live, second_live⟩ := Bool.and_eq_true_iff.1 live
      obtain ⟨front, front_accepts⟩ := first_ih first_live
      obtain ⟨back, back_accepts⟩ := second_ih second_live
      exact ⟨front ++ back, front, back, rfl, front_accepts, back_accepts⟩
  | many inner ih => exact ⟨[], [], rfl, nofun⟩

/-- A pattern is live, or it is the one without a text. -/
def IsLiveOrNever (pattern : Pattern) : Prop := pattern = .never ∨ pattern.isLive = true

theorem IsLiveOrNever.alt {left right : Pattern} (left_live : left.IsLiveOrNever)
    (right_live : right.IsLiveOrNever) : (left.alt right).IsLiveOrNever := by
  obtain rfl | left_live := left_live
  · rwa [Pattern.alt]
  obtain rfl | right_live := right_live
  · cases left <;> exact .inr left_live
  · unfold Pattern.alt
    split
    · exact .inr right_live
    · exact .inr left_live
    · exact .inr (Bool.and_eq_true_iff.2 ⟨left_live, right_live⟩)

theorem IsLiveOrNever.seq {first second : Pattern} (first_live : first.IsLiveOrNever)
    (second_live : second.isLive = true) : (first.seq second).IsLiveOrNever := by
  obtain rfl | first_live := first_live
  · exact .inl rfl
  · unfold Pattern.seq
    split
    · exact .inl rfl
    · exact .inr second_live
    · exact .inl rfl
    · exact .inr (Bool.and_eq_true_iff.2 ⟨first_live, second_live⟩)

theorem IsLiveOrNever.step {pattern : Pattern} (live : pattern.isLive = true) (char : Char) :
    (pattern.step char).IsLiveOrNever := by
  induction pattern with
  | never => exact .inl rfl
  | done => exact .inl rfl
  | one accepts =>
      rw [Pattern.step]
      split
      · exact .inr rfl
      · exact .inl rfl
  | either left right left_ih right_ih =>
      obtain ⟨left_live, right_live⟩ := Bool.and_eq_true_iff.1 live
      exact (left_ih left_live).alt (right_ih right_live)
  | andThen first second first_ih second_ih =>
      obtain ⟨first_live, second_live⟩ := Bool.and_eq_true_iff.1 live
      have behind := (first_ih first_live).seq second_live
      rw [Pattern.step]
      split
      · exact behind.alt (second_ih second_live)
      · exact behind
  | many inner ih => exact (ih live).seq live

end Pattern

namespace Lexer

variable {rules : List Rule} {text : List Char} {kind : Kind}

/-! ## Starts that can be completed -/

/-- Some rule accepts the text, or would with more behind it. -/
def Viable (text : List Char) : Prop :=
  ∃ rule ∈ Rule.all, ∃ more, rule.pattern.Matches (text ++ more)

theorem isLive_of_mem_alive {rule : Rule} (live : ∀ rule ∈ rules, rule.pattern.isLive = true)
    (mem : rule ∈ alive rules text) : rule.pattern.isLive = true := by
  induction text generalizing rules with
  | nil => exact live rule mem
  | cons char text ih =>
      refine ih (fun stepped stepped_mem => ?_) mem
      obtain ⟨origin, origin_mem, not_never, rfl⟩ := mem_advance.1 stepped_mem
      obtain never | live := Pattern.IsLiveOrNever.step (live origin origin_mem) char
      · rw [never] at not_never
        cases not_never
      · exact live

theorem isLive_of_mem_all : ∀ rule ∈ Rule.all, rule.pattern.isLive = true := by
  decide +kernel

/-- A rule stays alive as long as the text can be completed. -/
theorem alive_ne_nil_iff : alive Rule.all text ≠ [] ↔ Viable text := by
  constructor
  · intro not_nil
    obtain ⟨rule, mem⟩ := List.exists_mem_of_ne_nil _ not_nil
    obtain ⟨more, accepts⟩ :=
      Pattern.exists_matches_of_isLive (isLive_of_mem_alive isLive_of_mem_all mem)
    obtain ⟨origin, origin_mem, -, matches_iff⟩ := exists_of_mem_alive mem
    exact ⟨origin, origin_mem, more, (matches_iff more).1 accepts⟩
  · rintro ⟨rule, mem, more, accepts⟩ nil_eq
    obtain ⟨final, final_mem, -⟩ := exists_mem_alive mem accepts
    rw [alive_append, nil_eq, alive_of_nil] at final_mem
    cases final_mem

/-! ## The first rule that accepts -/

theorem advance_append (char : Char) (front back : List Rule) :
    advance char (front ++ back) = advance char front ++ advance char back :=
  List.filterMap_append

theorem alive_append_rules (front back : List Rule) (text : List Char) :
    alive (front ++ back) text = alive front text ++ alive back text := by
  induction text generalizing front back with
  | nil => rfl
  | cons char text ih => rw [alive_cons, advance_append, ih, ← alive_cons, ← alive_cons]

theorem accepted_append (front back : List Rule) :
    accepted (front ++ back) = (accepted front).or (accepted back) := by
  rw [accepted, List.find?_append, Option.map_or]
  rfl

/-- The rule accepts the text, and no rule before it does. -/
def IsFirst (rules : List Rule) (kind : Kind) (text : List Char) : Prop :=
  ∃ before rule behind, rules = before ++ rule :: behind ∧ rule.kind = kind ∧
    rule.pattern.Matches text ∧ ∀ earlier ∈ before, ¬ earlier.pattern.Matches text

theorem isFirst_of_accepted (accepted_eq : accepted (alive rules text) = some kind) :
    IsFirst rules kind text := by
  induction rules with
  | nil =>
      rw [alive_of_nil] at accepted_eq
      cases accepted_eq
  | cons rule rest ih =>
      have split_eq := alive_append_rules [rule] rest text
      rw [List.singleton_append] at split_eq
      rw [split_eq, accepted_append, Option.or_eq_some_iff] at accepted_eq
      obtain first_eq | ⟨none_eq, rest_eq⟩ := accepted_eq
      · obtain ⟨final, final_mem, kind_eq, accepts⟩ := exists_of_accepted first_eq
        obtain ⟨origin, origin_mem, origin_kind, matches_iff⟩ := exists_of_mem_alive final_mem
        obtain rfl := List.mem_singleton.1 origin_mem
        refine ⟨[], origin, rest, rfl, origin_kind.trans kind_eq, ?_, nofun⟩
        simpa using (matches_iff []).1 accepts
      · obtain ⟨before, found, behind, rfl, kind_eq, accepts, rejects⟩ := ih rest_eq
        refine ⟨rule :: before, found, behind, rfl, kind_eq, accepts, ?_⟩
        rw [List.forall_mem_cons]
        refine ⟨fun rule_accepts => ?_, rejects⟩
        obtain ⟨final, final_mem, -, final_accepts⟩ :=
          exists_mem_alive (List.mem_singleton_self rule) rule_accepts
        exact accepted_eq_none_iff.1 none_eq final final_mem final_accepts

/-! ## What is read at a point -/

/-- A length of the text is the longest that a rule accepts, and the kind is that of the first rule
that accepts it. -/
structure IsMunch (text : List Char) (kind : Kind) (length : Nat) : Prop where
  /-- Something is read. -/
  pos : 0 < length
  /-- It is a start of the text. -/
  le_length : length ≤ text.length
  /-- The first rule that accepts it has the kind. -/
  first : IsFirst Rule.all kind (text.take length)
  /-- No rule accepts a longer start. -/
  longest : ∀ rule ∈ Rule.all, ∀ longer ≤ text.length, rule.pattern.Matches (text.take longer) →
    longer ≤ length

theorem IsMunch.exists_rule {length : Nat} (munch : IsMunch text kind length) :
    ∃ rule ∈ Rule.all, rule.kind = kind ∧ rule.pattern.Matches (text.take length) := by
  obtain ⟨before, rule, behind, all_eq, kind_eq, accepts, -⟩ := munch.first
  refine ⟨rule, ?_, kind_eq, accepts⟩
  rw [all_eq]
  exact List.mem_append_right _ (.head _)

/-- No rule accepts a start of the text, and reading goes on to a length as long as some rule could
still be completed. -/
structure IsFailure (text : List Char) (length : Nat) : Prop where
  /-- Something is read. -/
  pos : 0 < length
  /-- It is a start of the text. -/
  le_length : length ≤ text.length
  /-- No rule accepts anything. -/
  rejects : ∀ rule ∈ Rule.all, ∀ shorter, 0 < shorter → shorter ≤ text.length →
    ¬ rule.pattern.Matches (text.take shorter)
  /-- What is read is one character, or can be completed and nothing longer can. -/
  viable_iff : ∀ shorter, 0 < shorter → shorter ≤ text.length →
    (shorter ≤ length ↔ shorter = 1 ∨ Viable (text.take shorter))

/-- What has been found is kept or made longer. -/
theorem le_of_longestFrom_best {read length best : Nat} {best_kind : Kind} (le : best ≤ read)
    (longest_eq : longestFrom rules read (some (best_kind, best)) text = (some kind, length)) :
    best ≤ length := by
  obtain same | ⟨front, back, -, -, length_eq, -⟩ := accepted_of_longestFrom longest_eq
  · cases same
    exact Nat.le_refl _
  · omega

theorem le_of_longestFrom {read length : Nat} {best : Option (Kind × Nat)} {front back : List Char}
    {found : Kind} (longest_eq : longestFrom rules read best (front ++ back) = (some kind, length))
    (not_nil : front ≠ []) (accepted_eq : accepted (alive rules front) = some found) :
    read + front.length ≤ length := by
  induction front generalizing rules read best with
  | nil => exact absurd rfl not_nil
  | cons char front ih =>
      rw [List.cons_append, longestFrom] at longest_eq
      rw [alive_cons] at accepted_eq
      split at longest_eq
      · rename_i dead
        rw [dead, alive_of_nil] at accepted_eq
        cases accepted_eq
      · cases front with
        | nil =>
            rw [alive_nil] at accepted_eq
            rw [accepted_eq] at longest_eq
            exact le_of_longestFrom_best (Nat.le_refl _) longest_eq
        | cons next front =>
            have le := ih longest_eq (List.cons_ne_nil _ _) accepted_eq
            simp only [List.length_cons] at le ⊢
            omega

theorem longestFrom_best_ne_none {read length : Nat} {best : Kind × Nat} :
    longestFrom rules read (some best) text ≠ (none, length) := by
  induction text generalizing rules read best with
  | nil => rintro ⟨⟩
  | cons char text ih =>
      rw [longestFrom]
      split
      · rintro ⟨⟩
      · split <;> exact ih

/-- Where nothing is found, reading has gone as far as a rule was alive. -/
theorem stuck_of_longestFrom {read length : Nat}
    (longest_eq : longestFrom rules read none text = (none, length)) :
    (∀ front back, text = front ++ back → front ≠ [] → accepted (alive rules front) = none) ∧
      ∃ front back, text = front ++ back ∧ length = max (read + front.length) 1 ∧
        (front ≠ [] → alive rules front ≠ []) ∧
        ∀ char more, back = char :: more → alive rules (front ++ [char]) = [] := by
  induction text generalizing rules read with
  | nil =>
      cases longest_eq
      refine ⟨fun front back nil_eq not_nil => ?_, [], [], rfl, rfl, absurd rfl, ?_⟩
      · exact absurd (List.append_eq_nil_iff.1 nil_eq.symm).1 not_nil
      · rintro _ _ ⟨⟩
  | cons char text ih =>
      rw [longestFrom] at longest_eq
      split at longest_eq
      · rename_i dead
        cases longest_eq
        refine ⟨fun front back text_eq not_nil => ?_, [], _, rfl, rfl, absurd rfl, ?_⟩
        · obtain ⟨first, front, rfl⟩ := List.exists_cons_of_ne_nil not_nil
          obtain ⟨rfl, -⟩ := List.cons.inj text_eq
          rw [alive_cons, dead, alive_of_nil]
          rfl
        · rintro _ _ ⟨⟩
          exact dead
      · rename_i live
        split at longest_eq
        · exact absurd longest_eq longestFrom_best_ne_none
        · rename_i none_eq
          obtain ⟨rejects, front, back, rfl, length_eq, front_live, stuck⟩ := ih longest_eq
          refine ⟨fun other behind text_eq not_nil => ?_, char :: front, back, rfl, ?_, ?_, ?_⟩
          · obtain ⟨first, other, rfl⟩ := List.exists_cons_of_ne_nil not_nil
            obtain ⟨rfl, tail_eq⟩ := List.cons.inj text_eq
            cases other with
            | nil => exact none_eq
            | cons next other => exact rejects _ behind tail_eq (List.cons_ne_nil _ _)
          · rw [length_eq, List.length_cons]
            congr 1
            omega
          · intro _
            rw [alive_cons]
            cases front with
            | nil => exact live
            | cons next front => exact front_live (List.cons_ne_nil _ _)
          · exact stuck

theorem exists_accepted {rule : Rule} (mem : rule ∈ rules) (accepts : rule.pattern.Matches text) :
    ∃ found, accepted (alive rules text) = some found := by
  obtain ⟨final, final_mem, -, final_accepts⟩ := exists_mem_alive mem accepts
  refine Option.ne_none_iff_exists'.1 fun none_eq => ?_
  exact accepted_eq_none_iff.1 none_eq final final_mem final_accepts

/-- At every point the longest start that a rule accepts is read, if there is one. -/
theorem isMunch_of_longest {length : Nat} (longest_eq : longest text = (some kind, length)) :
    IsMunch text kind length := by
  have longest_from := longest_eq
  obtain ⟨⟨⟩⟩ | ⟨front, back, rfl, not_nil, length_eq, accepted_eq⟩ :=
    accepted_of_longestFrom longest_eq
  rw [Nat.zero_add] at length_eq
  subst length_eq
  refine ⟨List.length_pos_iff.2 not_nil, by simp, ?_, fun rule mem longer le accepts => ?_⟩
  · rw [List.take_left]
    exact isFirst_of_accepted accepted_eq
  · cases longer with
    | zero => exact Nat.zero_le _
    | succ shorter =>
        obtain ⟨found, found_eq⟩ := exists_accepted mem accepts
        rw [longest, ← List.take_append_drop (shorter + 1) (front ++ back)] at longest_from
        have taken_length := List.length_take_of_le le
        have taken_not_nil : (front ++ back).take (shorter + 1) ≠ [] := by
          rw [← List.length_pos_iff, taken_length]
          exact Nat.succ_pos _
        have read_le := le_of_longestFrom longest_from taken_not_nil found_eq
        rwa [taken_length, Nat.zero_add] at read_le

/-- Where nothing is found, reading stops behind the longest text that can be completed. -/
theorem isFailure_of_longest {length : Nat} (not_nil : text ≠ [])
    (longest_eq : longest text = (none, length)) : IsFailure text length := by
  obtain ⟨rejects, front, back, rfl, length_eq, front_live, stuck⟩ :=
    stuck_of_longestFrom longest_eq
  rw [Nat.zero_add] at length_eq
  have text_pos := List.length_pos_iff.2 not_nil
  rw [List.length_append] at text_pos
  refine ⟨by omega, by rw [List.length_append]; omega, ?_, ?_⟩
  · intro rule mem shorter pos le accepts
    obtain ⟨found, found_eq⟩ := exists_accepted mem accepts
    have taken_not_nil : (front ++ back).take shorter ≠ [] := by
      rw [← List.length_pos_iff, List.length_take_of_le le]
      exact pos
    rw [rejects _ _ (List.take_append_drop shorter _).symm taken_not_nil] at found_eq
    cases found_eq
  · intro shorter pos le
    rw [← alive_ne_nil_iff]
    rw [List.length_append] at le
    obtain behind | inside := Nat.lt_or_ge front.length shorter
    · have dead : alive Rule.all ((front ++ back).take shorter) = [] := by
        cases back with
        | nil =>
            rw [List.length_nil] at le
            omega
        | cons char more =>
            have split_eq : (front ++ char :: more).take shorter =
                (front ++ [char]) ++ more.take (shorter - front.length - 1) := by
              rw [List.take_append, List.take_of_length_le (Nat.le_of_lt behind),
                List.take_cons (by omega), List.append_assoc, List.singleton_append]
            rw [split_eq, alive_append, stuck char more rfl, alive_of_nil]
      simp only [dead, ne_eq, not_true_eq_false, or_false]
      omega
    · -- A start of what has been read can be completed as what has been read can.
      refine iff_of_true (by omega) (.inr fun nil_eq => ?_)
      have front_not_nil : front ≠ [] := List.length_pos_iff.1 (by omega)
      rw [List.take_append_of_le_length inside] at nil_eq
      refine front_live front_not_nil ?_
      rw [← List.take_append_drop shorter front, alive_append, nil_eq, alive_of_nil]

end Lexer
end WorkItemQuery
