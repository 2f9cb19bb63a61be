import WorkItemQuery.Proofs.Grammar.Productions
import WorkItemQuery.Proofs.Tree.Shape

/-!
# Readings side by side

Token lists that agree token by token are read side by side: both readings take the same number of
tokens and answer trees of one shape over tokens that agree, or both stop for reasons that agree.
What agrees is a parameter.  All that the productions need of it is that tokens that agree are of one
kind, and that the reports on them agree.
-/

namespace WorkItemQuery

open WorkItemQuery.Tree (Alike AlikeAll)

namespace Grammar

/-! ## What agrees -/

/-- Reading stops for the same reason. -/
def SameStop (stop stop' : Stop) : Prop := stop' = stop

@[refl]
theorem SameStop.refl (stop : Stop) : SameStop stop stop := rfl

theorem SameStop.fault (fault : Fault) : SameStop (.fault fault) (.fault fault) := .refl _

/-- What two readings have in common: which of their tokens agree, and which reasons for stopping
do. -/
structure Agreement where
  /-- The tokens agree. -/
  token : Token → Token → Prop
  /-- The reasons for stopping agree. -/
  stop : Stop → Stop → Prop
  /-- The end of the first reading. -/
  left : Context
  /-- The end of the second reading. -/
  right : Context
  /-- Tokens that agree are of one kind. -/
  kind_eq : ∀ {first second}, token first second → second.kind = first.kind
  /-- Both may give no answer, for the same reason. -/
  of_fault : ∀ fault, stop (.fault fault) (.fault fault)
  /-- Both may report an error on the next token. -/
  of_stop : ∀ {rest rest'} problem, List.Forall₂ token rest rest' → problem.severity = .error →
    stop (left.stop rest problem) (right.stop rest' problem)
  /-- Both may miss a token of a kind. -/
  of_stopFor : ∀ {rest rest'} kind, List.Forall₂ token rest rest' →
    stop (left.stopFor kind rest) (right.stopFor kind rest')
  /-- Both may miss the parenthesis that closes one. -/
  of_stopUnclosed : ∀ {opened opened' rest rest'}, opened.kind = .leftParen →
    token opened opened' → List.Forall₂ token rest rest' →
    stop (left.stopUnclosed opened.span rest) (right.stopUnclosed opened'.span rest')

namespace Agreement

variable (agrees : Agreement)

/-- The tokens of two lists agree one by one. -/
def Tokens (tokens tokens' : List Token) : Prop := List.Forall₂ agrees.token tokens tokens'

/-- The trees are alike, and their tokens agree. -/
structure Trees (tree tree' : Tree) : Prop where
  /-- The trees are alike. -/
  alike : Alike tree tree'
  /-- Their tokens agree. -/
  tokens : agrees.Tokens tree.tokens tree'.tokens

/-- The trees of two lists are alike one by one, and their tokens agree. -/
structure TreeLists (trees trees' : List Tree) : Prop where
  /-- The trees are alike. -/
  alike : AlikeAll trees trees'
  /-- Their tokens agree. -/
  tokens : agrees.Tokens (Tree.tokensAll trees) (Tree.tokensAll trees')

/-- The answers agree, with what is left, or both readings stop for reasons that agree. -/
inductive Answers {α : Type} (values : α → α → Prop) :
    Except Stop (α × List Token) → Except Stop (α × List Token) → Prop where
  | taken (value value' : α) (rest rest' : List Token) : values value value' →
      agrees.Tokens rest rest' → Answers values (.ok (value, rest)) (.ok (value', rest'))
  | stopped (stop stop' : Stop) : agrees.stop stop stop' →
      Answers values (.error stop) (.error stop')

/-- The productions answer alike wherever the tokens agree. -/
def Parallel {α : Type} (values : α → α → Prop) (production production' : Production α) : Prop :=
  ∀ tokens tokens', agrees.Tokens tokens tokens' →
    agrees.Answers values (production tokens) (production' tokens')

variable {agrees} {α β : Type} {values : α → α → Prop} {others : β → β → Prop}

/-! ## Trees that agree -/

section

variable {token token' : Token} {tree tree' : Tree} {front front' back back' : List Tree}

theorem Trees.leaf (same : agrees.token token token') : agrees.Trees (.leaf token) (.leaf token') :=
  ⟨.leaf (agrees.kind_eq same), .cons same .nil⟩

theorem TreeLists.nil : agrees.TreeLists [] [] := ⟨.nil, .nil⟩

theorem TreeLists.cons (tree_agrees : agrees.Trees tree tree')
    (rest_agrees : agrees.TreeLists back back') : agrees.TreeLists (tree :: back) (tree' :: back') :=
  ⟨.cons tree_agrees.alike rest_agrees.alike,
    List.rel_append tree_agrees.tokens rest_agrees.tokens⟩

theorem TreeLists.leaf (same : agrees.token token token')
    (rest_agrees : agrees.TreeLists back back') :
    agrees.TreeLists (.leaf token :: back) (.leaf token' :: back') := .cons (.leaf same) rest_agrees

theorem TreeLists.single (tree_agrees : agrees.Trees tree tree') :
    agrees.TreeLists [tree] [tree'] := .cons tree_agrees .nil

theorem TreeLists.append (front_agrees : agrees.TreeLists front front')
    (back_agrees : agrees.TreeLists back back') :
    agrees.TreeLists (front ++ back) (front' ++ back') where
  alike := front_agrees.alike.append back_agrees.alike
  tokens := by
    rw [Tree.tokensAll_append, Tree.tokensAll_append]
    exact List.rel_append front_agrees.tokens back_agrees.tokens

theorem Tokens.nextKind_eq {rest rest' : List Token} (same : agrees.Tokens rest rest') :
    nextKind rest' = nextKind rest := by
  obtain _ | ⟨token_same, _⟩ := same
  · rfl
  · exact agrees.kind_eq token_same

end

/-! ## Rules -/

namespace Parallel

variable {production production' first first' : Production α} {next next' : α → Production β}

theorem pure {value value' : α} (same : values value value') :
    agrees.Parallel values (pure value) (Pure.pure value') :=
  fun tokens tokens' tokens_same => .taken value value' tokens tokens' same tokens_same

theorem bind (firsts : agrees.Parallel values first first')
    (nexts : ∀ value value', values value value' →
      agrees.Parallel others (next value) (next' value')) :
    agrees.Parallel others (first >>= next) (first' >>= next') := by
  intro tokens tokens' same
  have answers := firsts tokens tokens' same
  rw [bind_apply, bind_apply]
  generalize first tokens = answer, first' tokens' = answer' at answers ⊢
  cases answers with
  | taken value value' rest rest' value_same rest_same =>
      exact nexts value value' value_same rest rest' rest_same
  | stopped stop stop' stop_same => exact .stopped stop stop' stop_same

theorem haltWith {stop stop' : List Token → Stop}
    (stops : ∀ rest rest', agrees.Tokens rest rest' → agrees.stop (stop rest) (stop' rest')) :
    agrees.Parallel values (haltWith stop) (Grammar.haltWith stop') :=
  fun tokens tokens' same => .stopped _ _ (stops tokens tokens' same)

theorem halt {problem : Problem} (is_error : problem.severity = .error) :
    agrees.Parallel values (halt agrees.left problem) (Grammar.halt agrees.right problem) :=
  haltWith fun _ _ same => agrees.of_stop problem same is_error

theorem fault (fault : Fault) :
    agrees.Parallel values (throw (.fault fault)) (throw (.fault fault)) :=
  fun _ _ _ => .stopped _ _ (agrees.of_fault fault)

theorem peek : agrees.Parallel Eq peek Grammar.peek := by
  intro tokens tokens' same
  rw [Grammar.peek, Grammar.peek, same.nextKind_eq]
  exact .taken _ _ tokens tokens' rfl same

theorem eatOneOf (kinds : KindSet) :
    agrees.Parallel
      (Option.Rel fun token token' => token.kind ∈ kinds ∧ agrees.token token token')
      (eatOneOf kinds) (Grammar.eatOneOf kinds) := by
  intro tokens tokens' same
  by_cases mem : nextKind tokens ∈ kinds
  · cases same with
    | nil =>
        rw [Grammar.eatOneOf]
        exact .taken _ _ _ _ .none .nil
    | cons token_same rest_same =>
        rw [eatOneOf_cons mem, eatOneOf_cons (by rw [agrees.kind_eq token_same]; exact mem)]
        exact .taken _ _ _ _ (.some ⟨mem, token_same⟩) rest_same
  · rw [eatOneOf_of_notMem mem, eatOneOf_of_notMem (by rwa [same.nextKind_eq])]
    exact .taken _ _ _ _ .none same

/-- The next token if its kind lies in a set, and nothing otherwise. -/
theorem orElseOf {kinds : KindSet} {next next' : Option Token → Production α}
    (hit : ∀ token token', token.kind ∈ kinds → agrees.token token token' →
      agrees.Parallel values (next (some token)) (next' (some token')))
    (miss : agrees.Parallel values (next none) (next' none)) :
    agrees.Parallel values (Grammar.eatOneOf kinds >>= next) (Grammar.eatOneOf kinds >>= next') := by
  refine (eatOneOf kinds).bind fun found found' same => ?_
  cases same with
  | some found_same => exact hit _ _ found_same.1 found_same.2
  | none => exact miss

/-- The next token if its kind lies in a set, whichever it is, and nothing otherwise. -/
theorem orElse {kinds : KindSet} {next next' : Option Token → Production α}
    (hit : ∀ token token', agrees.token token token' →
      agrees.Parallel values (next (some token)) (next' (some token')))
    (miss : agrees.Parallel values (next none) (next' none)) :
    agrees.Parallel values (Grammar.eatOneOf kinds >>= next) (Grammar.eatOneOf kinds >>= next') :=
  orElseOf (fun token token' _ same => hit token token' same) miss

theorem optional (kinds : KindSet) :
    agrees.Parallel agrees.TreeLists (optional kinds) (Grammar.optional kinds) :=
  orElse (fun _ _ same => pure (.leaf same .nil)) (pure .nil)

theorem expect (kind : Kind) {problem : Problem} (is_error : problem.severity = .error) :
    agrees.Parallel agrees.token (expect agrees.left kind problem)
      (Grammar.expect agrees.right kind problem) :=
  orElse (fun _ _ same => pure same) (halt is_error)

theorem expectToken (kind : Kind) :
    agrees.Parallel agrees.token (expectToken agrees.left kind)
      (Grammar.expectToken agrees.right kind) :=
  orElse (fun _ _ same => pure same) (haltWith fun _ _ same => agrees.of_stopFor kind same)

theorem openParen :
    agrees.Parallel (fun opened opened' => opened.kind = .leftParen ∧ agrees.token opened opened')
      (Grammar.expectToken agrees.left .leftParen)
      (Grammar.expectToken agrees.right .leftParen) :=
  orElseOf (fun _ _ mem same => pure ⟨KindSet.mem_single.1 mem, same⟩)
    (haltWith fun _ _ same => agrees.of_stopFor .leftParen same)

theorem closeParen {opened opened' : Token}
    (opened_same : opened.kind = .leftParen ∧ agrees.token opened opened') :
    agrees.Parallel agrees.token (closeParen agrees.left opened.span)
      (Grammar.closeParen agrees.right opened'.span) :=
  orElse (fun _ _ same => pure same) (haltWith fun _ _ same =>
    agrees.of_stopUnclosed opened_same.1 opened_same.2 same)

/-! ## Nodes and lists -/

theorem node (kind : Kind) {children children' : List Tree}
    (same : agrees.TreeLists children children') :
    agrees.Parallel agrees.Trees (liftM (node kind children)) (liftM (Grammar.node kind children')) := by
  have shape_eq := same.alike.checkShape_eq kind
  unfold Grammar.node Tree.build
  rw [shape_eq]
  cases (Tree.node kind children).checkShape with
  | ok => exact pure ⟨.node same.alike, same.tokens⟩
  | error error => exact fault (.malformed error)

theorem chain (kind : Kind) {parts parts' : List (List Tree)}
    (same : List.Forall₂ agrees.TreeLists parts parts') :
    agrees.Parallel agrees.Trees (liftM (chain kind parts)) (liftM (Grammar.chain kind parts')) := by
  induction same with
  | nil => exact fault .stalled
  | cons part_same rest_same ih =>
      cases rest_same with
      | nil => exact node kind part_same
      | cons next_same rest_same =>
          rw [liftM_chain_cons_cons, liftM_chain_cons_cons]
          exact ih.bind fun tail tail' tail_same => node kind (part_same.append (.single tail_same))

variable {item item' : Production (List Tree)}

theorem elementsWithin (items : agrees.Parallel agrees.TreeLists item item') (separators : KindSet)
    (steps : Nat) :
    agrees.Parallel (List.Forall₂ agrees.TreeLists) (elementsWithin item separators steps)
      (Grammar.elementsWithin item' separators steps) := by
  induction steps with
  | zero => exact fault .stalled
  | succ steps ih =>
      refine items.bind fun children children' children_same => orElse (fun _ _ same => ?_) ?_
      · exact ih.bind fun rest rest' rest_same =>
          pure (.cons (children_same.append (.leaf same .nil)) rest_same)
      · exact pure (.cons children_same .nil)

theorem linked (kind : Kind) (separators : KindSet)
    (items : agrees.Parallel agrees.TreeLists item item') :
    agrees.Parallel agrees.Trees (linked kind separators item)
      (Grammar.linked kind separators item') := by
  have elements : agrees.Parallel (List.Forall₂ agrees.TreeLists) (elements item separators)
      (Grammar.elements item' separators) := by
    intro tokens tokens' same
    rw [Grammar.elements, Grammar.elements, ← List.Forall₂.length_eq same]
    exact elementsWithin items separators _ tokens tokens' same
  exact elements.bind fun parts parts' parts_same => chain kind parts_same

/-! ## Values and operators -/

theorem field : agrees.Parallel agrees.Trees (field agrees.left) (Grammar.field agrees.right) :=
  (expect .identifier rfl).bind fun _ _ same => node .field (.leaf same .nil)

theorem number : agrees.Parallel agrees.Trees (number agrees.left) (Grammar.number agrees.right) :=
  (optional _).bind fun _ _ minus_same => (expectToken .digits).bind fun _ _ same =>
    node .number (minus_same.append (.leaf same .nil))

theorem date : agrees.Parallel agrees.Trees (date agrees.left) (Grammar.date agrees.right) :=
  (expect .string rfl).bind fun _ _ same => node .dateTime (.leaf same .nil)

theorem term : agrees.Parallel agrees.Trees (term agrees.left) (Grammar.term agrees.right) := by
  rw [term_eq, term_eq]
  refine orElse (fun _ _ same => pure (.leaf same)) (peek.bind ?_)
  rintro kind _ rfl
  split
  · exact number
  · exact number
  · exact field
  · exact halt rfl

theorem value : agrees.Parallel agrees.Trees (value agrees.left) (Grammar.value agrees.right) := by
  refine term.bind fun first first' first_same => orElse (fun _ _ sign_same => ?_) ?_
  · exact number.bind fun _ _ offset_same =>
      node .value (.cons first_same (.leaf sign_same (.single offset_same)))
  · exact node .value (.single first_same)

theorem valueList :
    agrees.Parallel agrees.Trees (valueList agrees.left) (Grammar.valueList agrees.right) :=
  linked _ _ (value.bind fun _ _ same => pure (.single same))

theorem operatorProper :
    agrees.Parallel agrees.Trees (operatorProper agrees.left)
      (Grammar.operatorProper agrees.right) := by
  refine orElse (fun _ _ contains_same => ?_) (orElse (fun _ _ word_same => ?_) ?_)
  · refine orElse (fun _ _ words_same => ?_) (pure (.leaf contains_same))
    exact node .containsWords (.leaf contains_same (.leaf words_same .nil))
  · exact (expectToken .groupKw).bind fun _ _ group_same =>
      node .inGroup (.leaf word_same (.leaf group_same .nil))
  · exact orElse (fun _ _ same => pure (.leaf same)) (halt rfl)

theorem operator :
    agrees.Parallel agrees.Trees (operator agrees.left) (Grammar.operator agrees.right) :=
  (optional _).bind fun _ _ negation_same => operatorProper.bind fun _ _ proper_same =>
    node .operator (negation_same.append (.single proper_same))

/-! ## Conditions -/

theorem membership :
    agrees.Parallel agrees.TreeLists (membership agrees.left) (Grammar.membership agrees.right) :=
  (optional _).bind fun _ _ negation_same => (expectToken .inKw).bind fun _ _ word_same =>
    openParen.bind fun _ _ opened_same => valueList.bind fun _ _ values_same =>
      (closeParen opened_same).bind fun _ _ closed_same =>
        pure (negation_same.append (.leaf word_same (.leaf opened_same.2
          (.cons values_same (.leaf closed_same .nil)))))

theorem startsMembership_eq {tokens tokens' : List Token} (same : agrees.Tokens tokens tokens') :
    startsMembership tokens' = startsMembership tokens := by
  have kindAt_eq : ∀ ahead, kindAt tokens' ahead = kindAt tokens ahead := by
    intro ahead
    have dropped : agrees.Tokens (tokens.drop ahead) (tokens'.drop ahead) :=
      List.forall₂_drop ahead same
    exact dropped.nextKind_eq
  simp only [startsMembership, kindAt_eq]

theorem comparison :
    agrees.Parallel agrees.TreeLists (comparison agrees.left) (Grammar.comparison agrees.right) := by
  intro tokens tokens' same
  rw [comparison_apply, comparison_apply, startsMembership_eq same]
  split
  · exact membership tokens tokens' same
  · have compare : agrees.Parallel agrees.TreeLists _ _ :=
      operator.bind fun _ _ relation_same => value.bind fun _ _ right_same =>
        pure (.cons relation_same (.single right_same))
    exact compare tokens tokens' same

theorem side {word word' : Token} (word_same : agrees.token word word') :
    agrees.Parallel agrees.Trees (side agrees.left word) (Grammar.side agrees.right word') := by
  refine (expectToken .dot).bind fun _ _ dot_same => ?_
  rw [agrees.kind_eq word_same]
  exact node _ (.leaf word_same (.leaf dot_same .nil))

theorem sideOf (form : Dialect) :
    agrees.Parallel agrees.TreeLists (sideOf form agrees.left)
      (Grammar.sideOf form agrees.right) := by
  unfold Grammar.sideOf
  split
  · exact orElse (fun _ _ word_same => (side word_same).bind fun _ _ same => pure (.single same))
      (pure .nil)
  · exact pure .nil

theorem leafCondition (form : Dialect) :
    agrees.Parallel agrees.Trees (leafCondition agrees.left form)
      (Grammar.leafCondition agrees.right form) := by
  refine peek.bind ?_
  rintro start _ rfl
  split
  · exact (sideOf form).bind fun _ _ side_same => field.bind fun _ _ name_same =>
      comparison.bind fun _ _ rest_same =>
        node _ (side_same.append (.cons name_same rest_same))
  · exact halt rfl

section

variable {nested nested' : Production Tree}

theorem condition (nests : agrees.Parallel agrees.Trees nested nested') (form : Dialect) :
    agrees.Parallel agrees.Trees (condition agrees.left form nested)
      (Grammar.condition agrees.right form nested') := by
  refine orElseOf (fun _ _ mem opened_same => ?_) (leafCondition form)
  have opened_kind := KindSet.mem_single.1 mem
  exact nests.bind fun _ _ inner_same =>
    (closeParen ⟨opened_kind, opened_same⟩).bind fun _ _ closed_same =>
      node _ (.leaf opened_same (.cons inner_same (.leaf closed_same .nil)))

theorem conditions (nests : agrees.Parallel agrees.Trees nested nested') (form : Dialect) :
    agrees.Parallel agrees.Trees (conditions agrees.left form nested)
      (Grammar.conditions agrees.right form nested') :=
  linked _ _ ((optional _).bind fun _ _ modifier_same => (condition nests form).bind fun _ _ same =>
    pure (modifier_same.append (.single same)))

end

theorem expression (form : Dialect) (depth : Nat) :
    agrees.Parallel agrees.Trees (expression agrees.left form depth)
      (Grammar.expression agrees.right form depth) := by
  induction depth with
  | zero => exact conditions (fault .recursionLimit) form
  | succ depth ih => exact conditions ih form

/-! ## Queries -/

theorem fieldList :
    agrees.Parallel agrees.Trees (fieldList agrees.left) (Grammar.fieldList agrees.right) :=
  linked _ _ (field.bind fun _ _ same => pure (.single same))

theorem orderList (form : Dialect) :
    agrees.Parallel agrees.Trees (orderList agrees.left form)
      (Grammar.orderList agrees.right form) :=
  linked _ _ ((sideOf form).bind fun _ _ side_same => field.bind fun _ _ name_same =>
    (optional _).bind fun _ _ direction_same =>
      pure (side_same.append (.cons name_same direction_same)))

theorem clause (word : Kind) {body body' : Production Tree}
    (bodies : agrees.Parallel agrees.Trees body body') :
    agrees.Parallel agrees.TreeLists (clause word body) (Grammar.clause word body') :=
  orElse (fun _ _ found_same => bodies.bind fun _ _ same => pure (.leaf found_same (.single same)))
    (pure .nil)

/-- The kinds are the same, and the trees agree. -/
def KindAndTrees (agrees : Agreement) (answer answer' : Kind × List Tree) : Prop :=
  answer'.1 = answer.1 ∧ agrees.TreeLists answer.2 answer'.2

theorem mode :
    agrees.Parallel (KindAndTrees agrees) (mode agrees.left) (Grammar.mode agrees.right) := by
  refine orElse (fun _ _ same => pure ⟨rfl, .leaf same .nil⟩)
    (orElse (fun _ _ word_same => ?_) (halt rfl))
  refine orElse (fun _ _ comma_same => ?_) (pure ⟨rfl, .leaf word_same .nil⟩)
  exact (expectToken _).bind fun _ _ same =>
    pure ⟨rfl, .leaf word_same (.leaf comma_same (.leaf same .nil))⟩

theorem modeClause :
    agrees.Parallel (KindAndTrees agrees) (modeClause agrees.left)
      (Grammar.modeClause agrees.right) := by
  refine orElse (fun _ _ word_same => ?_) (pure ⟨rfl, .nil⟩)
  refine openParen.bind fun _ _ opened_same => mode.bind ?_
  rintro ⟨kind, inside⟩ ⟨_, inside'⟩ ⟨rfl, inside_same⟩
  exact (closeParen opened_same).bind fun _ _ closed_same =>
    pure ⟨rfl, .leaf word_same (.leaf opened_same.2 (inside_same.append (.leaf closed_same .nil)))⟩

theorem linkClauses :
    agrees.Parallel (KindAndTrees agrees) (linkClauses agrees.left)
      (Grammar.linkClauses agrees.right) := by
  refine peek.bind ?_
  rintro next _ rfl
  split
  · refine modeClause.bind ?_
    rintro ⟨kind, mode⟩ ⟨_, mode'⟩ ⟨rfl, mode_same⟩
    exact (clause .asofKw date).bind fun _ _ date_same => pure ⟨rfl, mode_same.append date_same⟩
  · refine (clause .asofKw date).bind fun _ _ date_same => modeClause.bind ?_
    rintro ⟨kind, mode⟩ ⟨_, mode'⟩ ⟨rfl, mode_same⟩
    exact pure ⟨rfl, date_same.append mode_same⟩

theorem filterClauses (form : Dialect) (depth : Nat) :
    agrees.Parallel agrees.TreeLists (filterClauses agrees.left form depth)
      (Grammar.filterClauses agrees.right form depth) :=
  (clause .whereKw (expression form depth)).bind fun _ _ filter_same =>
    (clause .orderByKw (orderList form)).bind fun _ _ order_same =>
      pure (filter_same.append order_same)

section

variable {head head' : List Tree}

theorem flatTail (depth : Nat) (head_same : agrees.TreeLists head head') :
    agrees.Parallel agrees.Trees (flatTail agrees.left depth head)
      (Grammar.flatTail agrees.right depth head') := by
  refine (filterClauses .flat depth).bind fun _ _ filter_same =>
    (clause .asofKw date).bind fun _ _ date_same => peek.bind ?_
  rintro next _ rfl
  split
  · exact halt rfl
  · exact node _ ((head_same.append filter_same).append date_same)

theorem linkTail (depth : Nat) (head_same : agrees.TreeLists head head') :
    agrees.Parallel agrees.Trees (linkTail agrees.left depth head)
      (Grammar.linkTail agrees.right depth head') := by
  refine (filterClauses .link depth).bind fun _ _ filter_same => linkClauses.bind ?_
  rintro ⟨kind, clauses⟩ ⟨_, clauses'⟩ ⟨rfl, clauses_same⟩
  exact node _ ((head_same.append filter_same).append clauses_same)

end

/-- Token lists that agree are read as trees that agree, or both readings stop. -/
theorem query (depth : Nat) :
    agrees.Parallel agrees.Trees (query agrees.left depth) (Grammar.query agrees.right depth) := by
  refine (expect .selectKw rfl).bind fun _ _ select_same => fieldList.bind fun _ _ fields_same =>
    (expect .fromKw rfl).bind fun _ _ origin_same => ?_
  have head_same := TreeLists.leaf select_same (.cons fields_same (.leaf origin_same .nil))
  refine orElse (fun _ _ source_same => ?_) (orElse (fun _ _ source_same => ?_) (halt rfl))
  · exact flatTail depth (head_same.append (.leaf source_same .nil))
  · exact linkTail depth (head_same.append (.leaf source_same .nil))

end Parallel
end Agreement
end Grammar
end WorkItemQuery
