import WorkItemQuery.Proofs.Grammar.Rules

/-!
# Lists of items

A list is read item by item as long as a separator follows, and its items are then linked from the
last to the first.  The number of steps that a reading is given does not matter once it is enough.
-/

namespace WorkItemQuery
namespace Grammar

variable {ctx : Context} {bound : Nat} {item : Production (List Tree)}
  {item' : Nat → Production (List Tree)}
  {separators : KindSet} {IsItem : List Tree → Prop}

/-! ## One step of a list -/

theorem elementsWithin_of_error {tokens : List Token} {stop : Stop}
    (item_eq : item tokens = .error stop) (steps : Nat) :
    elementsWithin item separators (steps + 1) tokens = .error stop :=
  bind_of_error item_eq

theorem elementsWithin_of_last {tokens rest : List Token} {children : List Tree}
    (item_eq : item tokens = .ok (children, rest)) (last : nextKind rest ∉ separators)
    (steps : Nat) :
    elementsWithin item separators (steps + 1) tokens = .ok ([children], rest) := by
  rw [elementsWithin, bind_of_ok item_eq, bind_of_ok (eatOneOf_of_notMem last)]
  rfl

theorem elementsWithin_of_more {tokens rest : List Token} {children : List Tree}
    {separator : Token} (item_eq : item tokens = .ok (children, separator :: rest))
    (mem : separator.kind ∈ separators) (steps : Nat) :
    elementsWithin item separators (steps + 1) tokens =
      (elementsWithin item separators steps rest).map fun answer =>
        ((children ++ [.leaf separator]) :: answer.1, answer.2) := by
  rw [elementsWithin, bind_of_ok item_eq, bind_of_ok (eatOneOf_cons mem rest)]
  dsimp only
  rw [bind_apply]
  cases elementsWithin item separators steps rest <;> rfl

/-- An answer that is not for lack of steps stays the same with more steps. -/
theorem elementsWithin_mono (not_end : .endMark ∉ separators) {steps steps' : Nat}
    (le : steps ≤ steps') {tokens : List Token}
    (enough : elementsWithin item separators steps tokens ≠ .error (.fault .stalled)) :
    elementsWithin item separators steps' tokens = elementsWithin item separators steps tokens := by
  induction steps generalizing steps' tokens with
  | zero => exact absurd rfl enough
  | succ steps ih =>
      obtain ⟨steps', rfl⟩ := Nat.exists_eq_add_of_le' (Nat.zero_lt_of_lt le)
      cases item_eq : item tokens with
      | error stop => rw [elementsWithin_of_error item_eq, elementsWithin_of_error item_eq]
      | ok answer =>
          obtain ⟨children, rest⟩ := answer
          by_cases mem : nextKind rest ∈ separators
          · obtain ⟨separator, rest, rfl, -⟩ := exists_cons_of_nextKind fun at_end =>
              not_end (at_end ▸ mem)
            rw [elementsWithin_of_more item_eq mem] at enough ⊢
            rw [elementsWithin_of_more item_eq mem, ih (Nat.le_of_succ_le_succ le)]
            intro stalled
            rw [stalled] at enough
            exact enough rfl
          · rw [elementsWithin_of_last item_eq mem, elementsWithin_of_last item_eq mem]

theorem elements_of_elementsWithin (not_end : .endMark ∉ separators) {steps : Nat}
    {tokens : List Token} (enough : tokens.length < steps) {answer}
    (elements_eq : elements item separators tokens = answer)
    (not_stalled : answer ≠ .error (.fault .stalled)) :
    elementsWithin item separators steps tokens = answer := by
  have within_eq : elementsWithin item separators (tokens.length + 1) tokens = answer := elements_eq
  rw [elementsWithin_mono not_end enough (within_eq ▸ not_stalled), within_eq]

/-! ## The contract of a list -/

/-- The items of a list, each but the last with its separator, and their word. -/
inductive IsParts (separators : KindSet) (IsItem : List Tree → Prop) :
    List (List Tree) → List Token → Prop where
  | last (item : List Tree) : IsItem item → IsParts separators IsItem [item] (Tree.tokensAll item)
  | more (item : List Tree) (separator : Token) (parts : List (List Tree)) (taken : List Token) :
      IsItem item → separator.kind ∈ separators → IsParts separators IsItem parts taken →
      IsParts separators IsItem ((item ++ [.leaf separator]) :: parts)
        (Tree.tokensAll item ++ separator :: taken)

/-- The word of a list of trees of which something holds. -/
def WordOfAll (IsItem : List Tree → Prop) (trees : List Tree) (taken : List Token) : Prop :=
  IsItem trees ∧ Tree.tokensAll trees = taken

/-- A longer list goes on alike, since more steps than it needs do not matter. -/
theorem elements_of_more (not_end : .endMark ∉ separators) {tokens rest : List Token}
    {children : List Tree} {separator : Token} {answer}
    (item_eq : item tokens = .ok (children, separator :: rest)) (mem : separator.kind ∈ separators)
    (shorter : rest.length < tokens.length) (elements_eq : elements item separators rest = answer)
    (not_stalled : answer ≠ .error (.fault .stalled)) :
    elements item separators tokens =
      answer.map fun answer => ((children ++ [.leaf separator]) :: answer.1, answer.2) := by
  unfold elements
  rw [elementsWithin_of_more item_eq mem,
    elements_of_elementsWithin not_end shorter elements_eq not_stalled]

/-- An item with its separator is put before the items that follow. -/
theorem outcome_of_more (not_end : .endMark ∉ separators) {steps : Nat} {trees : List Tree}
    {separator : Token} {rest : List Token} (is_item : IsItem trees)
    (mem : separator.kind ∈ separators)
    (item_eq : item (Tree.tokensAll trees ++ separator :: rest) = .ok (trees, separator :: rest))
    (again : ∀ extra rest', nextKind rest' = separator.kind →
      item' extra (Tree.tokensAll trees ++ rest') = .ok (trees, rest'))
    (outcome : Outcome ctx [] rest (IsParts separators IsItem)
      (fun extra => elements (item' extra) separators) (elementsWithin item separators steps rest)) :
    Outcome ctx [] (Tree.tokensAll trees ++ separator :: rest) (IsParts separators IsItem)
      (fun extra => elements (item' extra) separators)
      (elementsWithin item separators (steps + 1) (Tree.tokensAll trees ++ separator :: rest)) := by
  have widen : ∀ parts total,
      (∃ taken, total = Tree.tokensAll trees ++ [separator] ++ taken ∧
        IsParts separators IsItem parts taken) →
      IsParts separators IsItem ((trees ++ [.leaf separator]) :: parts) total := by
    rintro parts _ ⟨taken, rfl, is_parts⟩
    rw [List.append_assoc, List.singleton_append]
    exact .more trees separator parts taken is_item mem is_parts
  have framed := (outcome.frame (Tree.tokensAll trees ++ [separator])).map
    (fun parts => (trees ++ [.leaf separator]) :: parts) widen
  rw [elementsWithin_of_more item_eq mem, List.append_cons]
  refine Outcome.append_left (by exact framed) fun extra rest' _ enough => ?_
  rw [List.append_assoc, List.singleton_append]
  refine elements_of_more not_end (again extra _ rfl) mem ?_ rfl fun stalled => enough ?_
  · simp only [List.length_append, List.length_cons]
    omega
  · rw [stalled]
    rfl

theorem outcome_elementsWithin (not_end : .endMark ∉ separators)
    (reads_item : Reads ctx bound [] item item' (WordOfAll IsItem)) (steps : Nat)
    (tokens : List Token) (enough : tokens.length < steps) (short : tokens.length < bound) :
    Outcome ctx [] tokens (IsParts separators IsItem) (fun extra => elements (item' extra) separators)
      (elementsWithin item separators steps tokens) := by
  induction steps generalizing tokens with
  | zero => exact absurd enough (Nat.not_lt_zero _)
  | succ steps ih =>
      have outcome := reads_item tokens short
      generalize item_eq : item tokens = answer at outcome
      cases outcome with
      | stopped stop taken rest tokens_eq stops completes again =>
          rw [elementsWithin_of_error item_eq]
          obtain ⟨trees, more, is_item, word_eq⟩ := completes
          refine .stopped stop taken rest tokens_eq stops ⟨[trees], more, ?_⟩ ?_
          · rw [← word_eq]
            exact .last trees is_item
          · intro extra rest' same
            obtain ⟨stop', not_stalled, item_eq'⟩ := again extra rest' same
            exact ⟨stop', not_stalled, elementsWithin_of_error item_eq' _⟩
      | taken trees taken rest tokens_eq holds again =>
          obtain ⟨is_item, rfl⟩ := holds
          by_cases mem : nextKind rest ∈ separators
          · obtain ⟨separator, rest, rfl, -⟩ := exists_cons_of_nextKind fun at_end =>
              not_end (at_end ▸ mem)
            subst tokens_eq
            rw [List.length_append, List.length_cons] at enough short
            exact outcome_of_more not_end is_item mem item_eq again
              (ih rest (by omega) (by omega))
          · rw [elementsWithin_of_last item_eq mem]
            refine .taken [trees] (Tree.tokensAll trees) rest tokens_eq (.last trees is_item) ?_
            intro extra rest' same
            exact elementsWithin_of_last (again extra rest' same) (same ▸ mem) _

/-! ## Linking the items -/

theorem chain_cons {kind : Kind} {children : List Tree} {parts : List (List Tree)}
    {taken : List Token} (is_parts : IsParts separators IsItem parts taken) :
    chain kind (children :: parts) =
      (chain kind parts >>= fun tail => node kind (children ++ [tail])) := by
  cases is_parts <;> rfl

/-- The items of a list link to a chain with the same word. -/
theorem chain_of_isParts {kind : Kind} {parts : List (List Tree)} {taken : List Token}
    (builds : ∀ trees tail, IsItem trees →
      node kind (trees ++ tail) = .ok (.node kind (trees ++ tail)))
    (is_parts : IsParts separators IsItem parts taken) :
    ∃ tree, chain kind parts = .ok tree ∧ IsChain kind separators IsItem tree ∧
      tree.tokens = taken := by
  induction is_parts with
  | last trees is_item =>
      refine ⟨.node kind trees, ?_, .last trees is_item, rfl⟩
      simpa [chain] using builds trees [] is_item
  | more trees separator parts taken is_item mem is_parts ih =>
      obtain ⟨tail, chain_eq, is_chain, tokens_eq⟩ := ih
      refine ⟨.node kind (trees ++ [.leaf separator, tail]), ?_,
        .more trees separator tail is_item mem is_chain, by simp [tokens_eq]⟩
      rw [chain_cons is_parts, chain_eq, ok_bind, List.append_assoc]
      exact builds trees [.leaf separator, tail] is_item

/-- The word of a tree of which something holds. -/
def WordOf (IsTree : Tree → Prop) (tree : Tree) (taken : List Token) : Prop :=
  IsTree tree ∧ tree.tokens = taken

theorem reads_linked {kind : Kind} (not_end : .endMark ∉ separators)
    (builds : ∀ trees tail, IsItem trees →
      node kind (trees ++ tail) = .ok (.node kind (trees ++ tail)))
    (reads_item : Reads ctx bound [] item item' (WordOfAll IsItem)) :
    Reads ctx bound [] (linked kind separators item)
      (fun extra => linked kind separators (item' extra)) (WordOf (IsChain kind separators IsItem)) := by
  have reads_elements : Reads ctx bound [] (elements item separators)
      (fun extra => elements (item' extra) separators) (IsParts separators IsItem) := fun tokens short =>
    outcome_elementsWithin not_end reads_item _ tokens (Nat.lt_succ_self _) short
  refine reads_elements.bind fun parts taken is_parts => ?_
  obtain ⟨tree, chain_eq, is_chain, tokens_eq⟩ := chain_of_isParts builds is_parts
  rw [chain_eq]
  exact Reads.pure ⟨is_chain, tokens_eq⟩

end Grammar
end WorkItemQuery
