import WorkItemQuery.Proofs.Tree.Order

/-!
# The spans of a tree

Where the tokens of a tree stand in the order of a text, every node covers the text from its first
token to its last, and the spans of its children lie within its own, one behind another.
-/

namespace WorkItemQuery

/-- The tokens do not overlap, and stand in the order of a text. -/
def InTextOrder (tokens : List Token) : Prop :=
  tokens.Pairwise fun first second => first.span.stop ≤ second.span.start

section

variable {tokens : List Token} {first last token : Token}

theorem InTextOrder.start_le (in_order : InTextOrder tokens) (first_eq : tokens.head? = some first)
    (mem : token ∈ tokens) : first.span.start ≤ token.span.start := by
  obtain ⟨rest, rfl⟩ := List.head?_eq_some_iff.1 first_eq
  obtain rfl | mem := List.mem_cons.1 mem
  · exact Nat.le_refl _
  · exact Nat.le_trans first.span.start_le_stop ((List.pairwise_cons.1 in_order).1 token mem)

theorem InTextOrder.le_stop (in_order : InTextOrder tokens) (last_eq : tokens.getLast? = some last)
    (mem : token ∈ tokens) : token.span.stop ≤ last.span.stop := by
  obtain ⟨front, rfl⟩ := List.getLast?_eq_some_iff.1 last_eq
  obtain mem | mem := List.mem_append.1 mem
  · have le := (List.pairwise_append.1 in_order).2.2 token mem last (.head _)
    exact Nat.le_trans le last.span.start_le_stop
  · obtain rfl := List.mem_singleton.1 mem
    exact Nat.le_refl _

theorem InTextOrder.of_infix {stretch : List Token} (in_order : InTextOrder tokens)
    (within : stretch <:+: tokens) : InTextOrder stretch :=
  List.Pairwise.sublist within.sublist in_order

end

namespace Tree

/-- The tree covers the text from the first token of its word to the last. -/
structure Spans (tree : Tree) (first last : Token) (span : Span) : Prop where
  /-- The first token. -/
  first_eq : tree.tokens.head? = some first
  /-- The last token. -/
  last_eq : tree.tokens.getLast? = some last
  /-- The span of the tree. -/
  span_eq : tree.span? = some span
  /-- It begins with the first token. -/
  start_eq : span.start = first.span.start
  /-- It ends with the last token. -/
  stop_eq : span.stop = last.span.stop

/-- The tree covers the text from its first token to its last, and its children lie within it, one
behind another. -/
structure IsSpanned (tree : Tree) : Prop where
  /-- The span of the tree. -/
  spans : ∃ first last span, tree.Spans first last span
  /-- The children lie within it. -/
  within : ∀ child ∈ tree.children, ∃ inner outer, child.span? = some inner ∧
    tree.span? = some outer ∧ outer.start ≤ inner.start ∧ inner.stop ≤ outer.stop
  /-- The children do not overlap, and stand in the order of the text. -/
  apart : tree.children.Pairwise fun left right => ∃ before behind, left.span? = some before ∧
    right.span? = some behind ∧ before.stop ≤ behind.start

variable {tree : Tree}

theorem exists_spans (in_order : InTextOrder tree.tokens) (not_nil : tree.tokens ≠ []) :
    ∃ first last span, tree.Spans first last span := by
  have first_eq := List.head?_eq_some_head not_nil
  have last_eq := List.getLast?_eq_some_getLast not_nil
  generalize tree.tokens.head not_nil = first at first_eq
  generalize tree.tokens.getLast not_nil = last at last_eq
  refine ⟨first, last, first.span.cover last.span, first_eq, last_eq, ?_, ?_, ?_⟩
  · rw [span?, firstToken?_eq, lastToken?_eq, first_eq, last_eq]
    rfl
  · exact Nat.min_eq_left (in_order.start_le first_eq (List.mem_of_getLast? last_eq))
  · exact Nat.max_eq_right (in_order.le_stop last_eq (List.mem_of_head? first_eq))

/-- A tree whose tokens stand in the order of a text is spanned, if neither it nor a child is
without tokens. -/
theorem isSpanned_of_inTextOrder (in_order : InTextOrder tree.tokens)
    (not_nil : tree.tokens ≠ []) (children_not_nil : ∀ child ∈ tree.children, child.tokens ≠ []) :
    tree.IsSpanned := by
  have spans := exists_spans in_order not_nil
  cases tree with
  | leaf token => exact ⟨spans, nofun, .nil⟩
  | node kind children =>
      have infix_of_mem : ∀ child ∈ children, child.tokens <:+: tokensAll children :=
        fun child => tokens_infix_tokensAll
      have child_spans : ∀ child ∈ children, ∃ first last span, child.Spans first last span :=
        fun child mem => exists_spans (in_order.of_infix (infix_of_mem child mem))
          (children_not_nil child mem)
      refine ⟨spans, fun child mem => ?_, ?_⟩
      · obtain ⟨first, last, outer, outer_spans⟩ := spans
        obtain ⟨child_first, child_last, inner, inner_spans⟩ := child_spans child mem
        refine ⟨inner, outer, inner_spans.span_eq, outer_spans.span_eq, ?_, ?_⟩
        · rw [outer_spans.start_eq, inner_spans.start_eq]
          exact in_order.start_le outer_spans.first_eq
            ((infix_of_mem child mem).subset (List.mem_of_head? inner_spans.first_eq))
        · rw [outer_spans.stop_eq, inner_spans.stop_eq]
          exact in_order.le_stop outer_spans.last_eq
            ((infix_of_mem child mem).subset (List.mem_of_getLast? inner_spans.last_eq))
      · rw [InTextOrder, tokens_node, tokensAll_eq_flatMap] at in_order
        refine (List.pairwise_flatMap.1 in_order).2.imp_of_mem fun {left right} left_mem right_mem
          ordered => ?_
        obtain ⟨_, last, before, before_spans⟩ := child_spans left left_mem
        obtain ⟨first, _, behind, behind_spans⟩ := child_spans right right_mem
        refine ⟨before, behind, before_spans.span_eq, behind_spans.span_eq, ?_⟩
        rw [before_spans.stop_eq, behind_spans.start_eq]
        exact ordered last (List.mem_of_getLast? before_spans.last_eq) first
          (List.mem_of_head? behind_spans.first_eq)

end Tree
end WorkItemQuery
