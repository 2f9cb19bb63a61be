import WorkItemQuery.Proofs.Select.Roles
import WorkItemQuery.Proofs.Tree.Built
import WorkItemQuery.Proofs.Tree.Order
import WorkItemQuery.Select.Printer

/-!
# Reading built trees

The shape check is all that the readings need: in a built tree every required role is played, a
condition is a nested expression or one complete comparison, and every query is read and printed.
-/

namespace WorkItemQuery
namespace Tree

variable {tree : Tree} {form : Dialect}

/-! ## Required roles -/

theorem isNode_of_required : ∀ kind : Kind, ∀ role ∈ requiredTokens kind ++ requiredParts kind,
    kind.isNode = true := by
  decide +kernel

theorem IsBuilt.has_required (built : IsBuilt tree) :
    ∀ role ∈ requiredTokens tree.kind ++ requiredParts tree.kind,
      tree.has (.single role.1) = true := by
  intro role mem
  exact has_of_checkShape (built.checkShape_eq (isNode_of_required _ role mem)) role mem

/-- A required token is there. -/
theorem IsBuilt.requireToken (built : IsBuilt tree) :
    ∀ role ∈ requiredTokens tree.kind, ∃ token,
      tree.requireToken role.1 role.2 = .ok token ∧ token.kind = role.1 := by
  intro role mem
  have tokens : ∀ kind : Kind, ∀ role ∈ requiredTokens kind, role.1.isNode = false := by
    decide +kernel
  obtain ⟨token, found, kind_mem⟩ := built.exists_token
    (by simpa using tokens tree.kind role mem)
    (built.has_required role (List.mem_append_left _ mem))
  exact ⟨token, requireToken_of_some found role.2, KindSet.mem_single.1 kind_mem⟩

/-- A required node is there. -/
theorem IsBuilt.exists_required (built : IsBuilt tree) :
    ∀ role ∈ requiredParts tree.kind, ∃ part,
      tree.part? role.1 = some part ∧ part.kind = role.1 ∧ IsBuilt part := by
  intro role mem
  have parts : ∀ kind : Kind, ∀ role ∈ requiredParts kind, role.1.isNode = true := by
    decide +kernel
  obtain ⟨part, found, part_built, kind_eq⟩ := built.exists_part (parts tree.kind role mem)
    (built.has_required role (List.mem_append_right _ mem))
  exact ⟨part, found, kind_eq, part_built⟩

theorem IsBuilt.requireToken_of_kind (built : IsBuilt tree) {kind : Kind} (role : Kind)
    {name : String} (kind_eq : tree.kind = kind) (mem : (role, name) ∈ requiredTokens kind) :
    ∃ token, tree.requireToken role name = .ok token := by
  obtain ⟨token, found, -⟩ := built.requireToken (role, name) (kind_eq ▸ mem)
  exact ⟨token, found⟩

theorem IsBuilt.exists_required_of_kind (built : IsBuilt tree) {kind role : Kind} {name : String}
    (kind_eq : tree.kind = kind) (mem : (role, name) ∈ requiredParts kind) :
    ∃ part, tree.part? role = some part ∧ part.kind = role ∧ IsBuilt part :=
  built.exists_required (role, name) (kind_eq ▸ mem)

/-! ## Fields, numbers and values -/

theorem IsBuilt.readField (built : IsBuilt tree) (kind_eq : tree.kind = .field) :
    ∃ field, tree.readField = .ok field := by
  obtain ⟨name, name_eq⟩ := built.requireToken_of_kind .identifier kind_eq (.head _)
  refine ⟨⟨name⟩, ?_⟩
  rw [Tree.readField, name_eq]
  rfl

theorem IsBuilt.readNumber (built : IsBuilt tree) (kind_eq : tree.kind = .number) :
    ∃ number, tree.readNumber = .ok number := by
  obtain ⟨digits, digits_eq⟩ := built.requireToken_of_kind .digits kind_eq (.head _)
  refine ⟨⟨tree.tokenInput? (.single .minus), digits⟩, ?_⟩
  rw [Tree.readNumber, digits_eq]
  rfl

theorem IsBuilt.readDate (built : IsBuilt tree) (kind_eq : tree.kind = .dateTime) :
    ∃ literal, tree.readDate = .ok literal :=
  built.requireToken_of_kind .string kind_eq (.head _)

/-- A child that can be the term of a value is read as one. -/
theorem IsBuilt.readTerm? (built : IsBuilt tree) (kind_mem : tree.kind ∈ KindSet.valueKinds) :
    ∃ term, tree.readTerm? = some (.ok term) := by
  rw [KindSet.valueKinds, KindSet.mem_ofList] at kind_mem
  simp only [List.mem_cons, List.not_mem_nil, or_false] at kind_mem
  obtain ⟨token, rfl, not_node⟩ | ⟨node_eq, is_node, -⟩ := built.leaf_or_node
  · rw [kind_leaf] at kind_mem
    obtain kind_eq | kind_eq | kind_eq | kind_eq | kind_eq | kind_eq | kind_eq := kind_mem <;>
      rw [kind_eq] at not_node <;>
      first | exact ⟨_, by rw [Tree.readTerm?, kind_eq]⟩ | cases not_node
  · obtain ⟨kind, children, rfl⟩ : ∃ kind children, tree = .node kind children := by
      cases tree with
      | leaf token => cases node_eq
      | node kind children => exact ⟨kind, children, rfl⟩
    rw [kind_node] at kind_mem is_node
    obtain rfl | rfl | rfl | rfl | rfl | rfl | rfl := kind_mem
    · obtain ⟨number, reads⟩ := built.readNumber rfl
      exact ⟨.number number, by rw [Tree.readTerm?, reads]; rfl⟩
    · cases is_node
    · obtain ⟨literal, reads⟩ := built.readDate rfl
      exact ⟨.dateTime literal, by rw [Tree.readTerm?, reads]; rfl⟩
    · cases is_node
    · cases is_node
    · cases is_node
    · obtain ⟨field, reads⟩ := built.readField rfl
      exact ⟨.field field, by rw [Tree.readTerm?, reads]; rfl⟩

/-- What the shape check says of a value. -/
theorem IsBuilt.checkValue (built : IsBuilt tree) (kind_eq : tree.kind = .value) :
    tree.has .valueKinds = true ∧ (tree.has .plusMinus = true → tree.offsetNumber?.isSome) := by
  have shape := built.checkShape_eq (by rw [kind_eq]; rfl)
  rw [checkShape, kind_eq] at shape
  obtain ⟨_, checked, offset⟩ := bind_eq_ok shape
  refine ⟨has_of_checkRole checked, fun signed => ?_⟩
  cases found : tree.offsetNumber? with
  | some number => rfl
  | none =>
      rw [signed, found] at offset
      cases offset

theorem IsBuilt.readTerm (built : IsBuilt tree) (kind_eq : tree.kind = .value) :
    ∃ term, tree.readTerm = .ok term := by
  obtain ⟨child, found⟩ := Option.isSome_iff_exists.1 (built.checkValue kind_eq).1
  obtain ⟨term, reads⟩ := (built.child (mem_children_of_nthInput? found)).readTerm?
    (kind_mem_of_nthInput? found)
  refine ⟨term, ?_⟩
  rw [Tree.readTerm, found, Option.bind_some, reads]
  rfl

theorem IsBuilt.of_offsetNumber? (built : IsBuilt tree) {offset : Tree}
    (found : tree.offsetNumber? = some offset) : IsBuilt offset ∧ offset.kind = .number := by
  unfold offsetNumber? at found
  split at found
  · cases found
  · obtain ⟨offset_built, kind_mem⟩ := built.of_nthNode? found
    exact ⟨offset_built, KindSet.mem_single.1 kind_mem⟩

/-- A sign has a number behind it. -/
theorem IsBuilt.exists_offset (built : IsBuilt tree) (kind_eq : tree.kind = .value) {sign : Token}
    (signed : tree.tokenInput? .plusMinus = some sign) :
    ∃ offset number, tree.offsetNumber? = some offset ∧ offset.kind = .number ∧
      offset.readNumber = .ok number := by
  have has_sign : tree.has .plusMinus = true := by
    obtain ⟨child, found, -⟩ := Option.bind_eq_some_iff.1 signed
    exact Option.isSome_iff_exists.2 ⟨child, found⟩
  obtain ⟨offset, found⟩ := Option.isSome_iff_exists.1 ((built.checkValue kind_eq).2 has_sign)
  obtain ⟨offset_built, offset_kind⟩ := built.of_offsetNumber? found
  obtain ⟨number, reads⟩ := offset_built.readNumber offset_kind
  exact ⟨offset, number, found, offset_kind, reads⟩

theorem IsBuilt.readValue (built : IsBuilt tree) (kind_eq : tree.kind = .value) :
    ∃ value, tree.readValue = .ok value := by
  obtain ⟨term, reads_term⟩ := built.readTerm kind_eq
  cases signed : tree.tokenInput? .plusMinus with
  | none =>
      refine ⟨⟨term, none⟩, ?_⟩
      rw [Tree.readValue, reads_term, signed]
      rfl
  | some sign =>
      obtain ⟨offset, number, found, -, reads⟩ := built.exists_offset kind_eq signed
      refine ⟨⟨term, some (sign, number)⟩, ?_⟩
      rw [Tree.readValue, reads_term, signed, found]
      simp only [reads]
      rfl

/-! ## Lists -/

theorem IsBuilt.of_mem_links (built : IsBuilt tree) {kind : Kind} (kind_eq : tree.kind = kind) :
    ∀ link ∈ tree.links kind, IsBuilt link ∧ link.kind = kind := by
  obtain ⟨size, size_eq⟩ : ∃ size, tree.size = size := ⟨_, rfl⟩
  induction size using Nat.strongRecOn generalizing tree with
  | ind size ih =>
      cases next : tree.part? kind with
      | none =>
          rw [links_of_last next]
          simpa using ⟨built, kind_eq⟩
      | some rest =>
          obtain ⟨rest_built, kind_mem⟩ := built.of_nthNode? next
          rw [links_of_next next]
          refine List.forall_mem_cons.2 ⟨⟨built, kind_eq⟩, ?_⟩
          exact ih _ (size_eq ▸ size_part?_lt next) rest_built (KindSet.mem_single.1 kind_mem) rfl

/-- A chain is read if each of its nodes is. -/
theorem IsBuilt.exists_mapM_links (built : IsBuilt tree) {kind : Kind} (kind_eq : tree.kind = kind)
    {α : Type} {read : Tree → Except BrokenRole α}
    (reads : ∀ link, IsBuilt link → link.kind = kind → ∃ value, read link = .ok value) :
    ∃ values, (tree.links kind).mapM read = .ok values := by
  obtain ⟨values, values_eq, -⟩ := exists_mapM_eq fun link mem =>
    let ⟨link_built, link_kind⟩ := built.of_mem_links kind_eq link mem
    reads link link_built link_kind
  exact ⟨values, values_eq⟩

/-- A list is read if each of its items is. -/
theorem IsBuilt.exists_mapM_parts (built : IsBuilt tree) {kind role : Kind} {name : String}
    (kind_eq : tree.kind = kind) (required : (role, name) ∈ requiredParts kind)
    {α : Type} {read : Tree → Except BrokenRole α}
    (reads : ∀ item, IsBuilt item → item.kind = role → ∃ value, read item = .ok value) :
    ∃ values, (tree.links kind).mapM (fun link => do
      let item ← link.requirePart role name
      read item) = .ok values := by
  refine built.exists_mapM_links kind_eq fun link link_built link_kind => ?_
  obtain ⟨item, found, item_kind, item_built⟩ :=
    link_built.exists_required_of_kind link_kind required
  rw [requirePart_of_some found]
  exact reads item item_built item_kind

theorem IsBuilt.readValues (built : IsBuilt tree) (kind_eq : tree.kind = .valueList) :
    ∃ values, tree.readValues = .ok values :=
  built.exists_mapM_parts kind_eq (.head _) fun _ item_built => item_built.readValue

theorem IsBuilt.readFields (built : IsBuilt tree) (kind_eq : tree.kind = .fieldList) :
    ∃ fields, tree.readFields = .ok fields :=
  built.exists_mapM_parts kind_eq (.head _) fun _ item_built => item_built.readField

/-! ## Operators and sides -/

theorem IsBuilt.exists_proper (built : IsBuilt tree) (kind_eq : tree.kind = .operator) :
    ∃ proper, tree.input? .conditionTokens = some proper ∧
      proper.kind ∈ KindSet.conditionTokens := by
  have shape := built.checkShape_eq (by rw [kind_eq]; rfl)
  rw [checkShape, kind_eq] at shape
  obtain ⟨proper, found⟩ := Option.isSome_iff_exists.1 (has_of_checkRole shape)
  exact ⟨proper, found, kind_mem_of_nthInput? found⟩

theorem IsBuilt.readOperator (built : IsBuilt tree) (kind_eq : tree.kind = .operator) :
    ∃ operator, tree.readOperator = .ok operator := by
  obtain ⟨proper, found, -⟩ := built.exists_proper kind_eq
  rw [Tree.readOperator, found]
  exact ⟨_, rfl⟩

theorem IsBuilt.readSide (built : IsBuilt tree) (kind_mem : tree.kind ∈ KindSet.sideNode) :
    ∃ side, tree.readSide = .ok side := by
  rw [KindSet.sideNode, KindSet.mem_ofList] at kind_mem
  simp only [List.mem_cons, List.not_mem_nil, or_false] at kind_mem
  rw [Tree.readSide]
  obtain kind_eq | kind_eq := kind_mem
  · obtain ⟨word, word_eq⟩ := built.requireToken_of_kind .sourceKw kind_eq (.head _)
    rw [if_pos kind_eq, word_eq]
    exact ⟨_, rfl⟩
  · obtain ⟨word, word_eq⟩ := built.requireToken_of_kind .targetKw kind_eq (.head _)
    rw [if_neg (by rw [kind_eq]; nofun), word_eq]
    exact ⟨_, rfl⟩

theorem IsBuilt.readSideOf (built : IsBuilt tree) (form : Dialect) :
    ∃ side?, tree.readSideOf form = .ok side? := by
  rw [Tree.readSideOf]
  split
  · cases found : tree.nodeInput? .sideNode with
    | none => exact ⟨none, rfl⟩
    | some side =>
        obtain ⟨side_built, kind_mem⟩ := built.of_nthNode? found
        obtain ⟨read, reads⟩ := side_built.readSide kind_mem
        refine ⟨some read, ?_⟩
        simp only [reads]
        rfl
  · exact ⟨none, rfl⟩

/-! ## Conditions -/

/-- What a condition is read as: its nested expression, which stands alone, or the one comparison
that is complete. -/
inductive FitsShape (form : Dialect) (tree : Tree) : Condition → Prop where
  | nested (inner : Tree) (expression : Expression) :
      tree.part? form.expression = some inner → inner.readExpression form = .ok expression →
      (∀ role ∈ [Kind.field, .operator, .value, .valueList], tree.part? role = none) →
      tree.tokenInput? (.single .inKw) = none →
      (form.hasSides = true → tree.nodeInput? .sideNode = none) →
      FitsShape form tree (.nested (tree.conditionParts form) expression)
  | compare (field operator value : Tree) (side? : Option Side) (name : FieldName)
      (relation : Operator) (right : Value) :
      tree.part? form.expression = none → tree.readSideOf form = .ok side? →
      tree.part? .field = some field → field.readField = .ok name →
      tree.part? .operator = some operator → operator.readOperator = .ok relation →
      tree.part? .value = some value → value.readValue = .ok right →
      (tree.tokenInput? (.single .inKw) = none ∨ tree.part? .valueList = none) →
      FitsShape form tree (.leaf (tree.conditionParts form) side?
        ⟨name, tree.tokenInput? (.single .notKw), .compare relation right⟩)
  | member (field list : Tree) (word : Token) (side? : Option Side) (name : FieldName)
      (values : List Value) :
      tree.part? form.expression = none → tree.readSideOf form = .ok side? →
      tree.part? .field = some field → field.readField = .ok name →
      tree.tokenInput? (.single .inKw) = some word →
      tree.part? .valueList = some list → list.readValues = .ok values →
      (tree.part? .operator = none ∨ tree.part? .value = none) →
      FitsShape form tree (.leaf (tree.conditionParts form) side?
        ⟨name, tree.tokenInput? (.single .notKw), .member word values⟩)

theorem FitsShape.reads {condition : Condition} (fits : FitsShape form tree condition) :
    tree.readCondition form = .ok condition := by
  cases fits with
  | nested inner expression found reads => exact readCondition_of_nested found reads
  | compare field operator value side? name relation right not_nested side found_field reads_field
      found_operator reads_operator found_value reads_value =>
      rw [readCondition_of_leaf not_nested]
      exact readLeaf_of_compare found_field found_operator found_value side reads_field
        reads_operator reads_value
  | member field list word side? name values not_nested side found_field reads_field found_word
      found_list reads_list no_compare =>
      rw [readCondition_of_leaf not_nested]
      exact readLeaf_of_member found_field no_compare found_word found_list side reads_field
        reads_list

/-- The two forms of conditions. -/
def forms : List Dialect := [.flat, .link]

/-- The parts of a comparison in a form. -/
def leafParts (form : Dialect) : KindSet :=
  if form.hasSides then comparisonParts.union .sideNode else comparisonParts

theorem checkShape_of_condition (mem : form ∈ forms) (kind_eq : tree.kind = form.condition) :
    tree.checkShape = tree.checkCondition form.expression (leafParts form) := by
  simp only [forms, List.mem_cons, List.not_mem_nil, or_false] at mem
  obtain rfl | rfl := mem <;> rw [checkShape, kind_eq] <;> rfl

/-- The shape check of a condition in terms of its parts. -/
theorem cases_of_checkCondition {nested : Kind} {parts : KindSet}
    (checked : tree.checkCondition nested parts = .ok ()) :
    tree.has (.single nested) = true ∧ tree.has parts = false ∨
      tree.has (.single nested) = false ∧ tree.has (.single .field) = true ∧
        (tree.has (.single .operator) = true ∧ tree.has (.single .value) = true ∧
            (tree.has (.single .inKw) = false ∨ tree.has (.single .valueList) = false) ∨
          (tree.has (.single .operator) = false ∨ tree.has (.single .value) = false) ∧
            tree.has (.single .inKw) = true ∧ tree.has (.single .valueList) = true) := by
  unfold checkCondition at checked
  split at checked
  · rename_i has_nested
    split at checked
    · cases checked
    · rename_i no_parts
      exact .inl ⟨has_nested, Bool.eq_false_iff.2 no_parts⟩
  · rename_i not_nested
    refine .inr ⟨Bool.eq_false_iff.2 not_nested, ?_⟩
    dsimp only at checked
    split at checked
    · rename_i has_field compare member
      simp only [Bool.and_eq_true, Bool.and_eq_false_iff] at compare member
      exact ⟨has_field, .inl ⟨compare.1, compare.2, member⟩⟩
    · rename_i has_field compare member
      simp only [Bool.and_eq_true, Bool.and_eq_false_iff] at compare member
      exact ⟨has_field, .inr ⟨compare, member.1, member.2⟩⟩
    · cases checked
    · cases checked

theorem has_eq_false_of_subset {kinds others : KindSet} (absent : tree.has others = false)
    (subset : ∀ kind ∈ kinds, kind ∈ others) : tree.has kinds = false := by
  rw [Bool.eq_false_iff, ne_eq, has_iff] at absent ⊢
  rintro ⟨child, mem, kind_mem⟩
  exact absent ⟨child, mem, subset _ kind_mem⟩

theorem part?_eq_none_of_has {role : Kind} (absent : tree.has (.single role) = false) :
    tree.part? role = none :=
  nodeInput?_eq_none absent

/-- A condition is read if the expression that is nested in it is. -/
theorem IsBuilt.exists_fitsShape (built : IsBuilt tree) (mem : form ∈ forms)
    (kind_eq : tree.kind = form.condition)
    (reads_nested : ∀ inner, tree.part? form.expression = some inner → IsBuilt inner →
      inner.kind = form.expression → ∃ expression, inner.readExpression form = .ok expression) :
    ∃ condition, FitsShape form tree condition := by
  have node_kinds : ∀ form ∈ forms, form.condition.isNode = true ∧
      form.expression.isNode = true := by
    decide
  obtain ⟨condition_node, expression_node⟩ := node_kinds form mem
  have shape := built.checkShape_eq (kind_eq ▸ condition_node)
  rw [checkShape_of_condition mem kind_eq] at shape
  obtain ⟨has_nested, no_parts⟩ | ⟨not_nested, has_field, operand⟩ := cases_of_checkCondition shape
  · obtain ⟨inner, found, inner_built, inner_kind⟩ := built.exists_part expression_node has_nested
    obtain ⟨expression, reads⟩ := reads_nested inner found inner_built inner_kind
    have absent : ∀ role ∈ [Kind.field, .operator, .value, .valueList, .inKw],
        tree.has (.single role) = false := by
      intro role role_mem
      have role_parts : ∀ form ∈ forms, ∀ role ∈ [Kind.field, .operator, .value, .valueList, .inKw],
          role ∈ leafParts form := by
        decide
      refine has_eq_false_of_subset no_parts fun kind kind_mem => ?_
      rw [KindSet.mem_single.1 kind_mem]
      exact role_parts form mem role role_mem
    refine ⟨_, .nested inner expression found reads (fun role role_mem => ?_) ?_ fun has_sides => ?_⟩
    · exact part?_eq_none_of_has (absent role (List.mem_append_left [Kind.inKw] role_mem))
    · exact tokenInput?_eq_none (absent .inKw (by decide))
    · refine nodeInput?_eq_none (has_eq_false_of_subset no_parts fun kind kind_mem => ?_)
      rw [leafParts, if_pos has_sides]
      exact KindSet.mem_union.2 (.inr kind_mem)
  · have no_expression := part?_eq_none_of_has not_nested
    obtain ⟨field, found_field, field_built, field_kind⟩ := built.exists_part rfl has_field
    obtain ⟨name, reads_field⟩ := field_built.readField field_kind
    obtain ⟨side?, side⟩ := built.readSideOf form
    obtain ⟨has_operator, has_value, no_member⟩ | ⟨no_compare, has_word, has_list⟩ := operand
    · obtain ⟨operator, found_operator, operator_built, operator_kind⟩ :=
        built.exists_part rfl has_operator
      obtain ⟨value, found_value, value_built, value_kind⟩ := built.exists_part rfl has_value
      obtain ⟨relation, reads_operator⟩ := operator_built.readOperator operator_kind
      obtain ⟨right, reads_value⟩ := value_built.readValue value_kind
      exact ⟨_, .compare field operator value side? name relation right no_expression side
        found_field reads_field found_operator reads_operator found_value reads_value
        (no_member.imp tokenInput?_eq_none part?_eq_none_of_has)⟩
    · obtain ⟨word, found_word, -⟩ :=
        built.exists_token (by simp; rfl) has_word
      obtain ⟨list, found_list, list_built, list_kind⟩ := built.exists_part rfl has_list
      obtain ⟨values, reads_list⟩ := list_built.readValues list_kind
      exact ⟨_, .member field list word side? name values no_expression side found_field
        reads_field found_word found_list reads_list
        (no_compare.imp part?_eq_none_of_has part?_eq_none_of_has)⟩

/-! ## Chains of conditions -/

theorem requiredParts_of_form (mem : form ∈ forms) :
    (form.condition, "condition") ∈ requiredParts form.expression ∧
      (Kind.field, "field") ∈ requiredParts form.order := by
  simp only [forms, List.mem_cons, List.not_mem_nil, or_false] at mem
  obtain rfl | rfl := mem
  · exact ⟨.head _, .head _⟩
  · exact ⟨.head _, .head _⟩

theorem IsBuilt.readExpression (built : IsBuilt tree) (mem : form ∈ forms)
    (kind_eq : tree.kind = form.expression) :
    ∃ expression, tree.readExpression form = .ok expression := by
  obtain ⟨size, size_eq⟩ : ∃ size, tree.size = size := ⟨_, rfl⟩
  induction size using Nat.strongRecOn generalizing tree with
  | ind size ih =>
      subst size_eq
      obtain ⟨child, found, child_kind, child_built⟩ :=
        built.exists_required_of_kind kind_eq (requiredParts_of_form mem).1
      have child_less := size_part?_lt found
      obtain ⟨condition, fits⟩ := child_built.exists_fitsShape mem child_kind
        fun inner found_inner inner_built inner_kind =>
          ih _ (Nat.lt_trans (size_part?_lt found_inner) child_less) inner_built inner_kind rfl
      obtain ⟨rest, reads_rest⟩ : ∃ rest, ReadsRest form tree rest := by
        cases next : tree.part? form.expression with
        | none => exact ⟨.done, .done next⟩
        | some following =>
            obtain ⟨following_built, kind_mem⟩ := built.of_nthNode? next
            obtain ⟨rest, reads⟩ := ih _ (size_part?_lt next) following_built
              (KindSet.mem_single.1 kind_mem) rfl
            exact ⟨rest, .link following rest next reads⟩
      exact ⟨_, readExpression_of_parts found fits.reads reads_rest⟩

/-- Every condition is read as its shape says. -/
theorem IsBuilt.readCondition (built : IsBuilt tree) (mem : form ∈ forms)
    (kind_eq : tree.kind = form.condition) :
    ∃ condition, tree.readCondition form = .ok condition ∧ FitsShape form tree condition := by
  obtain ⟨condition, fits⟩ := built.exists_fitsShape mem kind_eq
    fun inner _ inner_built inner_kind => inner_built.readExpression mem inner_kind
  exact ⟨condition, fits.reads, fits⟩

theorem IsBuilt.readOrder (built : IsBuilt tree) (mem : form ∈ forms)
    (kind_eq : tree.kind = form.order) : ∃ keys, tree.readOrder form = .ok keys := by
  refine built.exists_mapM_links kind_eq fun link link_built link_kind => ?_
  obtain ⟨item, found, item_kind, item_built⟩ :=
    link_built.exists_required_of_kind link_kind (requiredParts_of_form mem).2
  obtain ⟨field, reads⟩ := item_built.readField item_kind
  obtain ⟨side?, side⟩ := link_built.readSideOf form
  refine ⟨⟨side?, field, link.tokenInput? .ascDesc⟩, ?_⟩
  rw [side, requirePart_of_some found]
  simp only [ok_bind, reads]
  rfl

/-! ## Queries -/

theorem IsBuilt.readPart? (built : IsBuilt tree) (kind : Kind) {α : Type}
    {read : Tree → Except BrokenRole α}
    (reads : ∀ part, IsBuilt part → part.kind = kind → ∃ value, read part = .ok value) :
    ∃ value?, tree.readPart? kind read = .ok value? := by
  rw [Tree.readPart?]
  cases found : tree.part? kind with
  | none => exact ⟨none, rfl⟩
  | some part =>
      obtain ⟨part_built, kind_mem⟩ := built.of_nthNode? found
      obtain ⟨value, value_eq⟩ := reads part part_built (KindSet.mem_single.1 kind_mem)
      exact ⟨some value, by simp only [value_eq]; rfl⟩

theorem IsBuilt.readSelectAs (built : IsBuilt tree) (mem : form ∈ forms) (scope : Scope)
    (required : (Kind.fieldList, "field list") ∈ requiredParts tree.kind) :
    ∃ select, tree.readSelectAs scope form = .ok select := by
  obtain ⟨list, found, list_kind, list_built⟩ := built.exists_required_of_kind rfl required
  obtain ⟨fields, reads_fields⟩ := list_built.readFields list_kind
  obtain ⟨filter?, reads_filter⟩ := built.readPart? form.expression
    fun part part_built part_kind => part_built.readExpression mem part_kind
  obtain ⟨order?, reads_order⟩ := built.readPart? form.order
    fun part part_built part_kind => part_built.readOrder mem part_kind
  obtain ⟨date?, reads_date⟩ := built.readPart? .dateTime
    fun part part_built part_kind => part_built.readDate part_kind
  refine ⟨⟨scope, fields, filter?, order?, date?⟩, ?_⟩
  rw [Tree.readSelectAs, requirePart_of_some found]
  simp only [ok_bind, reads_fields, reads_filter, reads_order, reads_date]
  rfl

/-- The kinds of queries. -/
def selectKinds : KindSet := .ofList [.flatSelect, .oneHopSelect, .recursiveSelect]

/-- Every query is printed. -/
theorem IsBuilt.format? (built : IsBuilt tree) (kind_mem : tree.kind ∈ selectKinds) :
    ∃ text, tree.format? = some (.ok text) := by
  have node_kinds : ∀ kind ∈ selectKinds, kind.isNode = true ∧
      (Kind.fieldList, "field list") ∈ requiredParts kind := by
    decide
  obtain ⟨is_node, required⟩ := node_kinds _ kind_mem
  obtain ⟨form, mem, scope, read_eq⟩ : ∃ form ∈ forms, ∃ scope,
      tree.readSelect? = some (tree.readSelectAs scope form) := by
    rw [readSelect?, built.node?_eq is_node, Option.map_some]
    rw [selectKinds, KindSet.mem_ofList] at kind_mem
    simp only [List.mem_cons, List.not_mem_nil, or_false] at kind_mem
    obtain kind_eq | kind_eq | kind_eq := kind_mem <;> rw [kind_eq]
    · exact ⟨.flat, by decide, _, rfl⟩
    · exact ⟨.link, by decide, _, rfl⟩
    · exact ⟨.link, by decide, _, rfl⟩
  obtain ⟨select, reads⟩ := built.readSelectAs mem scope required
  refine ⟨select.text, ?_⟩
  rw [Tree.format?, read_eq, reads]
  rfl

/-! ## All nodes -/

theorem IsBuilt.of_mem_preOrder (built : IsBuilt tree) : ∀ node ∈ tree.preOrder, IsBuilt node := by
  induction built with
  | leaf token not_node => nofun
  | node kind children tree all_built build_eq ih =>
      have built := IsBuilt.node kind children tree all_built build_eq
      obtain ⟨rfl, -⟩ := build_eq_ok build_eq
      rw [preOrder]
      refine List.forall_mem_cons.2 ⟨built, fun node mem => ?_⟩
      obtain ⟨child, child_mem, mem⟩ := mem_preOrderAll mem
      exact ih child child_mem node mem

/-- Every role of the node that must be played is, a sign has its number, a condition has its shape,
and a query is printed. -/
structure PlaysRoles (node : Tree) : Prop where
  /-- The required tokens are there. -/
  tokens : ∀ role ∈ requiredTokens node.kind, ∃ token,
    node.requireToken role.1 role.2 = .ok token ∧ token.kind = role.1
  /-- The required nodes are there. -/
  parts : ∀ role ∈ requiredParts node.kind, ∃ part,
    node.requirePart role.1 role.2 = .ok part ∧ part.kind = role.1
  /-- An operator has its condition token. -/
  operator : node.kind = .operator → ∃ proper,
    node.require (node.input? .conditionTokens) "condition token" = .ok proper ∧
      proper.kind ∈ KindSet.conditionTokens
  /-- A value has its term. -/
  term : node.kind = .value → ∃ term, node.readTerm = .ok term
  /-- A value with a sign has the number of its offset. -/
  offset : node.kind = .value → ∀ sign, node.tokenInput? .plusMinus = some sign →
    ∃ offset number, node.offsetNumber? = some offset ∧ offset.kind = .number ∧
      offset.readNumber = .ok number
  /-- A condition is nested or has one complete comparison. -/
  condition : ∀ form ∈ forms, node.kind = form.condition → ∃ condition,
    node.readCondition form = .ok condition ∧ FitsShape form node condition
  /-- A query is printed. -/
  format : node.kind ∈ selectKinds → ∃ text, node.format? = some (.ok text)

/-- The shape check is enough for every reading of every node. -/
theorem playsRoles_of_isBuilt (built : IsBuilt tree) : ∀ node ∈ tree.preOrder, PlaysRoles node := by
  intro node mem
  have node_built := built.of_mem_preOrder node mem
  refine ⟨node_built.requireToken, fun role role_mem => ?_, fun kind_eq => ?_,
    node_built.readTerm, fun kind_eq sign signed => node_built.exists_offset kind_eq signed,
    fun form form_mem kind_eq => node_built.readCondition form_mem kind_eq, node_built.format?⟩
  · obtain ⟨part, found, kind_eq, -⟩ := node_built.exists_required role role_mem
    exact ⟨part, requirePart_of_some found role.2, kind_eq⟩
  · obtain ⟨proper, found, kind_mem⟩ := node_built.exists_proper kind_eq
    exact ⟨proper, by rw [found]; rfl, kind_mem⟩

/-- The children of a condition may stand in any order, with others between them. -/
theorem playsRoles_shuffled :
    let name := Tree.leaf ⟨⟨.identifier, 1, 1, 0, "Id"⟩, []⟩
    let digits := Tree.leaf ⟨⟨.digits, 1, 6, 5, "1"⟩, []⟩
    let equals := Tree.leaf ⟨⟨.equals, 1, 4, 3, "="⟩, []⟩
    let condition := Tree.node .condition
      [.node .value [equals, .node .number [digits]], .node .operator [name, equals], digits,
        .node .field [digits, name]]
    IsBuilt condition ∧ ∀ node ∈ condition.preOrder, PlaysRoles node := by
  intro name digits equals condition
  have name_built : IsBuilt name := .leaf _ rfl
  have digits_built : IsBuilt digits := .leaf _ rfl
  have equals_built : IsBuilt equals := .leaf _ rfl
  have number_built : IsBuilt (.node .number [digits]) := .of_checkShape (by simpa) rfl
  have value_built : IsBuilt (.node .value [equals, .node .number [digits]]) :=
    .of_checkShape (by simp [equals_built, number_built]) rfl
  have operator_built : IsBuilt (.node .operator [name, equals]) :=
    .of_checkShape (by simp [name_built, equals_built]) rfl
  have field_built : IsBuilt (.node .field [digits, name]) :=
    .of_checkShape (by simp [name_built, digits_built]) rfl
  have built : IsBuilt condition :=
    .of_checkShape (by simp [value_built, operator_built, digits_built, field_built]) rfl
  exact ⟨built, playsRoles_of_isBuilt built⟩

end Tree
end WorkItemQuery
