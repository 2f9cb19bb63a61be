import WorkItemQuery.Proofs.Grammar.Written
import WorkItemQuery.Proofs.Select.Reading

/-!
# Derivation trees of whole queries

The text of a query is the layout of its tree once its date stands before its mode.  The order of
the two makes no difference to what the tree says.
-/

namespace WorkItemQuery

open WorkItemQuery.Tree (layoutAll layoutBehind StartsLoose firstOf tokensAll tightNodes opening
  closing)

/-! ## Clauses as text -/

/-- A word and a text behind it, each with a blank before it, or no text. -/
def clauseText {α : Type} (word : String) (text : α → String) : Option α → String
  | none => ""
  | some value => " " ++ word ++ " " ++ text value

theorem Select.text_eq (select : Select) :
    select.text.toList =
      ("SELECT " ++ commaSeparated (select.fields.map FieldName.text) ++ " FROM " ++
          select.scope.sourceText).toList ++
        ((clauseText "WHERE" Expression.text select.filter?).toList ++
          ((clauseText "ORDER BY" (fun order => commaSeparated (order.map SortKey.text))
              select.order?).toList ++
            ((clauseText "ASOF" (fun date => date.text) select.asOf?).toList ++
              select.scope.modeText.toList))) := by
  obtain ⟨scope, fields, filter?, order?, asOf?⟩ := select
  cases filter? <;> cases order? <;> cases asOf? <;> simp [Select.text, clauseText]

namespace Grammar

/-- A node of a kind is read to a value, and the text of the value is the layout of the node. -/
structure ReadsBody {α : Type} (kind : Kind) (read : Tree → Except BrokenRole α)
    (text : α → String) (body : Tree) : Prop where
  /-- The body is a node. -/
  node?_eq : body.node? = some body
  /-- The node is of the kind. -/
  kind_eq : body.kind = kind
  /-- The node has blanks around it. -/
  isFree : Tree.IsFree body.kind
  /-- The node is read. -/
  reads : ∃ value, read body = .ok value ∧ (text value).toList = body.layout

theorem IsExpression.readsBody {form : Dialect} {tree : Tree} (is_form : IsForm form)
    (is_expression : IsExpression form tree) :
    ReadsBody form.expression (Tree.readExpression form) Expression.text tree :=
  ⟨is_expression.node?_eq, is_expression.kind_eq, is_expression.isFree is_form,
    is_expression.reads is_form⟩

theorem IsOrderList.readsBody {form : Dialect} {tree : Tree} (is_form : IsForm form)
    (is_list : IsOrderList form tree) :
    ReadsBody form.order (Tree.readOrder form)
      (fun order => commaSeparated (order.map SortKey.text)) tree where
  node?_eq := by obtain _ | _ := is_list <;> rfl
  kind_eq := IsChain.kind_eq is_list
  isFree := is_list.isFree is_form
  reads := is_list.reads is_form

theorem IsDate.readsBody {tree : Tree} (is_date : IsDate tree) :
    ReadsBody .dateTime Tree.readDate (fun date => date.text) tree where
  node?_eq := by
    cases is_date
    rfl
  kind_eq := is_date.kind_eq
  isFree := is_date.isFree
  reads := is_date.reads

/-- A clause is read wherever it stands, and its text is its layout behind other children. -/
theorem IsClause.reads {α : Type} {parent word kind : Kind} {wordText : String}
    {IsBody : Tree → Prop} {clause front rest : List Tree} {read : Tree → Except BrokenRole α}
    {text : α → String} (is_clause : IsClause word IsBody clause) (loose : parent ∉ tightNodes)
    (word_text : word.canonicalText? = some wordText) (word_free : Tree.IsFree word)
    (word_ne : word ≠ kind) (body_reads : ∀ body, IsBody body → ReadsBody kind read text body)
    (front_lacks : ∀ tree ∈ front, tree.kind ≠ kind)
    (rest_lacks : ∀ tree ∈ rest, tree.kind ≠ kind) (starts : StartsLoose rest) :
    ∃ value?, (Tree.node parent (front ++ (clause ++ rest))).readPart? kind read = .ok value? ∧
      layoutBehind parent (clause ++ rest) =
        (clauseText wordText text value?).toList ++ layoutBehind parent rest := by
  cases is_clause with
  | absent =>
      refine ⟨none, ?_, rfl⟩
      rw [Tree.readPart?, Tree.part?_eq_none]
      exact List.forall_mem_append.2 ⟨front_lacks, rest_lacks⟩
  | present token body token_kind is_body =>
      obtain ⟨is_node, body_kind, body_free, value, reads, text_eq⟩ := body_reads body is_body
      refine ⟨some value, ?_, ?_⟩
      · have before_lacks : ∀ tree ∈ front ++ [.leaf token], tree.kind ≠ kind := by
          refine List.forall_mem_append.2 ⟨front_lacks, ?_⟩
          simpa [token_kind] using word_ne
        have found := Tree.part?_of_append before_lacks is_node body_kind parent rest
        rw [List.append_assoc, List.singleton_append] at found
        rw [List.cons_append, List.singleton_append, Tree.readPart?, found]
        simp only [reads]
        rfl
      · have token_free : Tree.IsFree (Tree.leaf token).kind := by
          rwa [Tree.kind_leaf, token_kind]
        have layout_eq : layoutAll parent [.leaf token, body] =
            (wordText ++ " " ++ text value).toList := by
          rw [Tree.layoutAll_spaced loose token_free.1 body_free.2, Tree.layoutAll_single,
            ← text_eq, Tree.layout_leaf, canonicalText_of_kind token_kind word_text]
          simp
        rw [List.cons_append, layoutBehind, ← List.cons_append,
          Tree.layoutAll_append_loose loose rfl body_free.1 starts, layout_eq]
        simp [clauseText]

/-! ## The parts of a query -/

/-- The kinds of the trees lie in a set. -/
def KindsIn (kinds : KindSet) (trees : List Tree) : Prop := ∀ tree ∈ trees, tree.kind ∈ kinds

/-- Trees whose kinds lie in a set play no role outside the set. -/
theorem KindsIn.lacks {trees : List Tree} {kinds : KindSet} {role : Kind}
    (kinds_in : KindsIn kinds trees) (notMem : role ∉ kinds) : ∀ tree ∈ trees, tree.kind ≠ role :=
  fun tree mem kind_eq => notMem (kind_eq ▸ kinds_in tree mem)

theorem KindsIn.startsLoose {trees : List Tree} {kinds : KindSet} (kinds_in : KindsIn kinds trees)
    (loose : ∀ kind ∈ kinds, kind ∉ closing) : StartsLoose trees :=
  fun _ mem => loose _ (kinds_in _ (List.mem_of_mem_head? mem))

section

variable {form : Dialect} {parent source : Kind} {head filter date mode : List Tree}

theorem IsHead.kindsIn (is_head : IsHead source head) :
    KindsIn (.ofList [.selectKw, .fieldList, .fromKw, source]) head := by
  cases is_head with
  | head select fields origin place select_kind is_list origin_kind place_kind =>
      simp [KindsIn, select_kind, origin_kind, place_kind, IsChain.kind_eq is_list]

theorem IsClause.kindsIn {word kind : Kind} {IsBody : Tree → Prop} {clause : List Tree}
    (is_clause : IsClause word IsBody clause) (body_kind : ∀ body, IsBody body → body.kind = kind) :
    KindsIn (.ofList [word, kind]) clause := by
  cases is_clause with
  | absent => exact nofun
  | present token body token_kind is_body => simp [KindsIn, token_kind, body_kind body is_body]

theorem IsHead.reads {place : String} {rest : List Tree} (is_head : IsHead source head)
    (loose : parent ∉ tightNodes)
    (known_source : source = .workItemsKw ∨ source = .workItemLinksKw)
    (source_text : source.canonicalText? = some place) (starts : StartsLoose rest) :
    ∃ list fields, (Tree.node parent (head ++ rest)).part? .fieldList = some list ∧
      list.readFields = .ok fields ∧
      layoutAll parent (head ++ rest) =
        ("SELECT " ++ commaSeparated (fields.map FieldName.text) ++ " FROM " ++ place).toList ++
          layoutBehind parent rest := by
  cases is_head with
  | head select list origin place_word select_kind is_list origin_kind place_kind =>
      obtain ⟨fields, reads, text_eq⟩ := is_list.reads
      have list_node : list.node? = some list := by
        obtain _ | _ := is_list <;> rfl
      have select_lacks : ∀ tree ∈ [Tree.leaf select], tree.kind ≠ .fieldList := by
        simp [select_kind]
      have select_free : Tree.IsFree (Tree.leaf select).kind := by
        rw [Tree.kind_leaf, select_kind]
        decide
      have origin_free : Tree.IsFree (Tree.leaf origin).kind := by
        rw [Tree.kind_leaf, origin_kind]
        decide
      have place_free : Tree.IsFree (Tree.leaf place_word).kind := by
        rw [Tree.kind_leaf, place_kind]
        obtain rfl | rfl := known_source <;> decide
      refine ⟨list, fields, ?_, reads, ?_⟩
      · exact Tree.part?_of_append select_lacks list_node (IsChain.kind_eq is_list) parent _
      · rw [Tree.layoutAll_append_loose loose rfl place_free.1 starts,
          Tree.layoutAll_spaced loose select_free.1 is_list.isFree.2,
          Tree.layoutAll_spaced loose is_list.isFree.1 origin_free.2,
          Tree.layoutAll_spaced loose origin_free.1 place_free.2, Tree.layoutAll_single, ← text_eq,
          Tree.layout_leaf, Tree.layout_leaf, Tree.layout_leaf,
          canonicalText_of_kind select_kind rfl, canonicalText_of_kind origin_kind rfl,
          canonicalText_of_kind place_kind source_text]
        simp

/-- The kinds that play a role in a query before its mode. -/
def frontRoles : KindSet :=
  .ofList [.fieldList, .logicalExpression, .linkExpression, .orderList, .linkOrderList, .dateTime]

/-- The parts of a query before its mode are told apart by their kinds. -/
theorem IsForm.roles_apart (is_form : IsForm form)
    (known_source : source = .workItemsKw ∨ source = .workItemLinksKw) :
    (form.expression ∈ frontRoles ∧ form.order ∈ frontRoles) ∧
      (.whereKw ≠ form.expression ∧ .orderByKw ≠ form.order) ∧
      (∀ kind ∈ KindSet.ofList [.orderByKw, form.order], kind ∉ closing) ∧
      (∀ kind ∈ KindSet.ofList [.whereKw, form.expression], kind ∉ closing) ∧
      (form.expression ∉ KindSet.ofList [.selectKw, .fieldList, .fromKw, source] ∧
        form.expression ∉ KindSet.ofList [.orderByKw, form.order] ∧
        form.expression ∉ KindSet.ofList [.asofKw, .dateTime]) ∧
      (form.order ∉ KindSet.ofList [.selectKw, .fieldList, .fromKw, source] ∧
        form.order ∉ KindSet.ofList [.whereKw, form.expression] ∧
        form.order ∉ KindSet.ofList [.asofKw, .dateTime]) ∧
      (.dateTime ∉ KindSet.ofList [.selectKw, .fieldList, .fromKw, source] ∧
        .dateTime ∉ KindSet.ofList [.whereKw, form.expression] ∧
        .dateTime ∉ KindSet.ofList [.orderByKw, form.order]) := by
  obtain rfl | rfl := is_form <;> obtain rfl | rfl := known_source <;> decide

/-- The parts of a query before its mode are read, and its text is its layout. -/
theorem reads_front (scope : Scope) (is_form : IsForm form)
    (loose : parent ∉ tightNodes) (is_head : IsHead source head) (is_filter : IsFilter form filter)
    (is_date : IsClause .asofKw IsDate date)
    (known_source : source = .workItemsKw ∨ source = .workItemLinksKw)
    (source_text : source.canonicalText? = some scope.sourceText)
    (mode_lacks : ∀ tree ∈ mode, tree.kind ∉ frontRoles) (mode_starts : StartsLoose mode)
    (mode_text : scope.modeText.toList = layoutBehind parent mode) :
    ∃ select, (Tree.node parent (head ++ filter ++ (date ++ mode))).readSelectAs scope form =
        .ok select ∧
      select.text.toList = layoutAll parent (head ++ filter ++ (date ++ mode)) := by
  obtain ⟨⟨expression_mem, order_mem⟩, ⟨where_ne, orderBy_ne⟩, order_loose, conditions_loose, expression_apart,
    order_apart, date_apart⟩ := is_form.roles_apart known_source
  have head_in := is_head.kindsIn
  have date_in := is_date.kindsIn fun _ body => body.kind_eq
  have mode_lacks : ∀ {role : Kind}, role ∈ frontRoles → ∀ tree ∈ mode, tree.kind ≠ role :=
    fun role_mem tree mem kind_eq => mode_lacks tree mem (kind_eq ▸ role_mem)
  cases is_filter with
  | filter conditions order is_conditions is_order =>
      have conditions_in := is_conditions.kindsIn fun _ body => body.kind_eq
      have order_in := is_order.kindsIn fun _ body => IsChain.kind_eq body
      have date_starts := (date_in.startsLoose (by decide)).append mode_starts
      have order_starts := (order_in.startsLoose order_loose).append date_starts
      have conditions_starts := (conditions_in.startsLoose conditions_loose).append order_starts
      obtain ⟨list, fields, found_list, reads_fields, head_text⟩ :=
        is_head.reads loose known_source source_text conditions_starts
      obtain ⟨filter?, reads_filter, filter_text⟩ := is_conditions.reads loose rfl (by decide)
        where_ne (fun _ body => body.readsBody is_form) (head_in.lacks expression_apart.1)
        (List.forall_mem_append.2 ⟨order_in.lacks expression_apart.2.1, List.forall_mem_append.2
          ⟨date_in.lacks expression_apart.2.2, mode_lacks expression_mem⟩⟩) order_starts
      obtain ⟨order?, reads_order, order_text⟩ := is_order.reads loose rfl (by decide) orderBy_ne
        (fun _ body => body.readsBody is_form)
        (List.forall_mem_append.2 ⟨head_in.lacks order_apart.1, conditions_in.lacks order_apart.2.1⟩)
        (List.forall_mem_append.2 ⟨date_in.lacks order_apart.2.2, mode_lacks order_mem⟩) date_starts
      obtain ⟨date?, reads_date, date_text⟩ := is_date.reads loose rfl (by decide)
        (by decide : Kind.asofKw ≠ .dateTime) (fun _ body => body.readsBody)
        (List.forall_mem_append.2 ⟨List.forall_mem_append.2
          ⟨head_in.lacks date_apart.1, conditions_in.lacks date_apart.2.1⟩,
          order_in.lacks date_apart.2.2⟩) (mode_lacks (by decide)) mode_starts
      simp only [List.append_assoc] at reads_order reads_date ⊢
      refine ⟨⟨scope, fields, filter?, order?, date?⟩, ?_, ?_⟩
      · rw [Tree.readSelectAs, Tree.requirePart_of_some found_list, reads_filter, reads_order,
          reads_date]
        simp only [ok_bind, reads_fields]
        rfl
      · rw [Select.text_eq, head_text, filter_text, order_text, date_text, mode_text]

/-- The kinds that play a role in the mode of a query. -/
def modeRoles : KindSet :=
  .ofList [.mustContainKw, .mayContainKw, .doesNotContainKw, .recursiveKw, .matchingChildrenKw]

theorem IsModeClause.kindsIn {kind : Kind} (is_mode : IsModeClause kind mode) :
    KindsIn (modeRoles.union (.ofList [.modeKw, .leftParen, .comma, .rightParen])) mode := by
  cases is_mode with
  | absent => exact nofun
  | present kind word opened inside closed word_kind opened_kind is_mode closed_kind =>
      have modes : ∀ kind ∈ KindSet.linkMode, kind ∈ modeRoles := by decide
      cases is_mode with
      | oneHop mode_word mem =>
          simp [KindsIn, word_kind, opened_kind, closed_kind, modes _ mem]
      | recursive mode_word mode_kind =>
          simp [KindsIn, word_kind, opened_kind, closed_kind, mode_kind, modeRoles]
      | matching mode_word comma matching mode_kind comma_kind matching_kind =>
          simp [KindsIn, word_kind, opened_kind, closed_kind, mode_kind, comma_kind, matching_kind,
            modeRoles]

theorem IsModeClause.kinds {kind : Kind} (is_mode : IsModeClause kind mode) :
    ∀ tree ∈ mode, tree.kind ∉ frontRoles ∧ tree.kind ≠ .asofKw := by
  have modes : ∀ kind ∈ modeRoles.union (.ofList [.modeKw, .leftParen, .comma, .rightParen]),
      kind ∉ frontRoles ∧ kind ≠ .asofKw := by
    decide
  exact fun tree mem => modes _ (is_mode.kindsIn tree mem)

theorem front_kinds (is_form : IsForm form)
    (known_source : source = .workItemsKw ∨ source = .workItemLinksKw)
    (is_head : IsHead source head) (is_filter : IsFilter form filter)
    (is_date : IsClause .asofKw IsDate date) :
    ∀ tree ∈ head ++ filter ++ date, tree.kind ∉ modeRoles ∧ tree.kind ≠ .modeKw := by
  have apart : (∀ kind ∈ KindSet.ofList [.selectKw, .fieldList, .fromKw, source],
        kind ∉ modeRoles ∧ kind ≠ .modeKw) ∧
      (∀ kind ∈ KindSet.ofList [.whereKw, form.expression], kind ∉ modeRoles ∧ kind ≠ .modeKw) ∧
      (∀ kind ∈ KindSet.ofList [.orderByKw, form.order], kind ∉ modeRoles ∧ kind ≠ .modeKw) ∧
      ∀ kind ∈ KindSet.ofList [.asofKw, .dateTime], kind ∉ modeRoles ∧ kind ≠ .modeKw := by
    obtain rfl | rfl := is_form <;> obtain rfl | rfl := known_source <;> decide
  obtain ⟨head_apart, conditions_apart, order_apart, date_apart⟩ := apart
  cases is_filter with
  | filter conditions order is_conditions is_order =>
      simp only [List.forall_mem_append]
      refine ⟨⟨fun tree mem => ?_, fun tree mem => ?_, fun tree mem => ?_⟩, fun tree mem => ?_⟩
      · exact head_apart _ (is_head.kindsIn tree mem)
      · exact conditions_apart _ (is_conditions.kindsIn (fun _ body => body.kind_eq) tree mem)
      · exact order_apart _ (is_order.kindsIn (fun _ body => IsChain.kind_eq body) tree mem)
      · exact date_apart _ (is_date.kindsIn (fun _ body => body.kind_eq) tree mem)

theorem IsModeClause.head_kind {kind : Kind} (is_mode : IsModeClause kind mode) :
    ∀ tree ∈ mode.head?, tree.kind = .modeKw := by
  cases is_mode with
  | absent => exact nofun
  | present kind word opened inside closed word_kind =>
      rintro _ ⟨⟩
      exact word_kind

theorem IsModeClause.startsLoose {kind : Kind} (is_mode : IsModeClause kind mode) :
    StartsLoose mode := by
  intro tree mem
  rw [is_mode.head_kind tree mem]
  decide

/-- The inside of a mode stands between parentheses. -/
theorem layoutBehind_mode {word opened closed : Token} {inside : List Tree} {text : String}
    (loose : parent ∉ tightNodes) (word_kind : word.kind = .modeKw)
    (opened_kind : opened.kind = .leftParen) (closed_kind : closed.kind = .rightParen)
    (not_nil : inside ≠ []) (text_eq : text.toList = layoutAll parent inside) :
    (" MODE (" ++ text ++ ")").toList =
      layoutBehind parent (.leaf word :: .leaf opened :: inside ++ [.leaf closed]) := by
  have closed_closes : closed.kind ∈ closing := by
    rw [closed_kind]
    decide
  have opened_opens : (Tree.leaf opened).kind ∈ opening ∧ (Tree.leaf opened).kind ∉ closing := by
    rw [Tree.kind_leaf, opened_kind]
    decide
  have word_loose : (Tree.leaf word).kind ∉ opening := by
    rw [Tree.kind_leaf, word_kind]
    decide
  obtain ⟨first, rest, rfl⟩ := List.exists_cons_of_ne_nil not_nil
  have inside_eq : layoutAll parent (first :: (rest ++ [.leaf closed])) =
      layoutAll parent (first :: rest) ++ layoutAll parent [.leaf closed] :=
    Tree.layoutAll_append_closing not_nil closed_closes []
  rw [List.cons_append, List.cons_append, layoutBehind,
    Tree.layoutAll_spaced loose word_loose opened_opens.2,
    List.cons_append, Tree.layoutAll_tight (.inr (.inl opened_opens.1)), inside_eq,
    Tree.layoutAll_single, Tree.layout_leaf, Tree.layout_leaf, Tree.layout_leaf,
    canonicalText_of_kind word_kind rfl, canonicalText_of_kind opened_kind rfl,
    canonicalText_of_kind closed_kind rfl, ← text_eq]
  simp

theorem readSelect?_oneHop {children : List Tree} {word? : Option Token}
    (found : (Tree.node .oneHopSelect children).tokenInput? .linkMode = word?) :
    (Tree.node .oneHopSelect children).readSelect? =
      some ((Tree.node .oneHopSelect children).readSelectAs (.oneHop word?) .link) := by
  rw [← found]
  rfl

theorem readSelect?_recursive {children : List Tree} {word? matching? : Option Token}
    (found : (Tree.node .recursiveSelect children).tokenInput? (.single .recursiveKw) = word?)
    (found_matching : (Tree.node .recursiveSelect children).tokenInput?
      (.single .matchingChildrenKw) = matching?) :
    (Tree.node .recursiveSelect children).readSelect? =
      some ((Tree.node .recursiveSelect children).readSelectAs (.recursive word? matching?)
        .link) := by
  rw [← found, ← found_matching]
  rfl

theorem IsMode.not_nil {kind : Kind} {inside : List Tree} (is_mode : IsMode kind inside) :
    inside ≠ [] := by
  cases is_mode <;> simp

/-- The inside of a mode is the scope of a query about links, and its text is its layout. -/
theorem IsMode.reads {kind : Kind} {inside children : List Tree} (is_mode : IsMode kind inside)
    (found : ∀ kinds : KindSet, (∀ kind ∈ kinds, kind ∈ modeRoles) →
      (Tree.node kind children).tokenInput? kinds = (firstOf kinds inside).bind Tree.token?) :
    ∃ (scope : Scope) (text : String), scope.isLink = true ∧
      scope.modeText = " MODE (" ++ text ++ ")" ∧ text.toList = layoutAll kind inside ∧
      (Tree.node kind children).readSelect? =
        some ((Tree.node kind children).readSelectAs scope .link) := by
  cases is_mode with
  | oneHop word mem =>
      refine ⟨.oneHop (some word), word.canonicalText, rfl, rfl, ?_, readSelect?_oneHop ?_⟩
      · rw [Tree.layoutAll_single, Tree.layout_leaf]
      · rw [found _ (by decide), Tree.firstOf_leaf_of_mem mem]
        rfl
  | recursive word word_kind =>
      refine ⟨.recursive (some word) none, "Recursive", rfl, rfl, ?_, readSelect?_recursive ?_ ?_⟩
      · rw [Tree.layoutAll_single, Tree.layout_leaf, canonicalText_of_kind word_kind rfl]
      · rw [found _ (by decide)]
        simp [firstOf, KindSet.single, word_kind, Tree.token?]
      · rw [found _ (by decide)]
        simp [firstOf, KindSet.single, word_kind]
  | matching word comma matching word_kind comma_kind matching_kind =>
      have comma_closes : (Tree.leaf comma).kind ∈ closing := by
        rw [Tree.kind_leaf, comma_kind]
        decide
      have comma_loose : (Tree.leaf comma).kind ∉ opening := by
        rw [Tree.kind_leaf, comma_kind]
        decide
      have matching_loose : (Tree.leaf matching).kind ∉ closing := by
        rw [Tree.kind_leaf, matching_kind]
        decide
      refine ⟨.recursive (some word) (some matching), "Recursive, " ++ matching.canonicalText, rfl,
        ?_, ?_, readSelect?_recursive ?_ ?_⟩
      · rw [← String.append_assoc]
        rfl
      · rw [Tree.layoutAll_tight (.inr (.inr comma_closes)),
          Tree.layoutAll_spaced (by decide) comma_loose matching_loose, Tree.layoutAll_single,
          Tree.layout_leaf, Tree.layout_leaf, Tree.layout_leaf,
          canonicalText_of_kind word_kind rfl, canonicalText_of_kind comma_kind rfl]
        simp
      · rw [found _ (by decide)]
        simp [firstOf, KindSet.single, word_kind, Tree.token?]
      · rw [found _ (by decide)]
        simp [firstOf, KindSet.single, word_kind, comma_kind, matching_kind, Tree.token?]

/-- The mode clause is the scope of a query about links, and its text is its layout. -/
theorem IsModeClause.reads {kind : Kind} {front : List Tree} (is_mode : IsModeClause kind mode)
    (front_lacks : ∀ tree ∈ front, tree.kind ∉ modeRoles) :
    ∃ scope : Scope, scope.isLink = true ∧ scope.modeText.toList = layoutBehind kind mode ∧
      (Tree.node kind (front ++ mode)).readSelect? =
        some ((Tree.node kind (front ++ mode)).readSelectAs scope .link) := by
  have found : ∀ kinds : KindSet, (∀ kind ∈ kinds, kind ∈ modeRoles) →
      (Tree.node kind (front ++ mode)).tokenInput? kinds = (firstOf kinds mode).bind Tree.token? := by
    intro kinds roles
    rw [Tree.tokenInput?_node, Tree.firstOf_append_of_none fun tree mem kind_mem =>
      front_lacks tree mem (roles _ kind_mem)]
  cases is_mode with
  | absent => exact ⟨.oneHop none, rfl, rfl, readSelect?_oneHop (found _ (by decide))⟩
  | present kind word opened inside closed word_kind opened_kind is_mode closed_kind =>
      have loose : kind ∉ tightNodes := by
        cases is_mode <;> decide
      have marks : word.kind ∉ modeRoles ∧ opened.kind ∉ modeRoles ∧ closed.kind ∉ modeRoles := by
        rw [word_kind, opened_kind, closed_kind]
        decide
      have inside_found : ∀ kinds : KindSet, (∀ kind ∈ kinds, kind ∈ modeRoles) →
          firstOf kinds (.leaf word :: .leaf opened :: inside ++ [.leaf closed]) =
            firstOf kinds inside := by
        intro kinds roles
        rw [List.cons_append, List.cons_append,
          Tree.firstOf_leaf_of_notMem fun mem => marks.1 (roles _ mem),
          Tree.firstOf_leaf_of_notMem fun mem => marks.2.1 (roles _ mem), Tree.firstOf_append,
          Tree.firstOf_leaf_of_notMem fun mem => marks.2.2 (roles _ mem), Tree.firstOf_nil,
          Option.or_none]
      obtain ⟨scope, text, is_link, mode_text, text_eq, reads⟩ := is_mode.reads fun kinds roles =>
        (found kinds roles).trans (congrArg (·.bind Tree.token?) (inside_found kinds roles))
      refine ⟨scope, is_link, ?_, reads⟩
      rw [mode_text, layoutBehind_mode loose word_kind opened_kind closed_kind is_mode.not_nil
        text_eq]

/-- A query with its date first is read, and its text is its layout. -/
theorem IsDateFirst.reads {root : Tree} (is_query : IsDateFirst root) :
    ∃ select, root.readSelect? = some (.ok select) ∧ select.text.toList = root.layout := by
  cases is_query with
  | flat head filter date is_head is_filter is_date =>
      obtain ⟨select, reads, text_eq⟩ := reads_front .flat (.inl rfl)
        (by decide : Kind.flatSelect ∉ tightNodes) is_head is_filter is_date (.inl rfl) rfl
        (nofun : ∀ tree : Tree, tree ∈ [] → tree.kind ∉ frontRoles) nofun rfl
      rw [List.append_nil] at reads text_eq
      exact ⟨select, congrArg some reads, text_eq⟩
  | link kind head filter date mode is_head is_filter is_date is_mode =>
      have loose : kind ∉ tightNodes := by
        obtain rfl | rfl := is_mode.kind_eq <;> decide
      have front_kinds := front_kinds (.inr rfl) (.inr rfl) is_head is_filter is_date
      have mode_kinds := is_mode.kinds
      obtain ⟨scope, is_link, mode_text, reads_scope⟩ :=
        is_mode.reads fun tree mem => (front_kinds tree mem).1
      have source_text : Kind.workItemLinksKw.canonicalText? = some scope.sourceText := by
        rw [Scope.sourceText, if_pos is_link]
        rfl
      obtain ⟨select, reads, text_eq⟩ := reads_front scope (.inr rfl) loose is_head is_filter is_date
        (.inr rfl) source_text (fun tree mem => (mode_kinds tree mem).1) is_mode.startsLoose mode_text
      rw [List.append_assoc] at reads_scope
      exact ⟨select, reads_scope.trans (congrArg some reads), text_eq⟩

end

end Grammar
end WorkItemQuery
