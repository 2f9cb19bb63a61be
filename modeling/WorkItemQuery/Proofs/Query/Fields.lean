import Mathlib.Data.List.Basic
import WorkItemQuery.Proofs.Grammar.Parts
import WorkItemQuery.Proofs.Select.Queries
import WorkItemQuery.Query.Validation

/-!
# The field names of a query

The names among the tokens of a query are its field names, in order, and those before its `FROM` are
the fields that it selects.
-/

namespace WorkItemQuery

/-- The token is a name. -/
def Token.isName (token : Token) : Bool := token.kind == .identifier

/-- The field name of a field node, and none of other nodes. -/
def Tree.fieldName? (node : Tree) : Option FieldName :=
  if node.kind = .field then node.readField.toOption else none

theorem Tree.fieldNames_eq_preOrder (tree : Tree) :
    tree.fieldNames = tree.preOrder.filterMap fieldName? := by
  rw [fieldNames, descendants_eq_preOrder]
  rfl

namespace Grammar

section

variable {token name : Token} {kind : Kind}

theorem filter_isName_of_kind (token_kind : token.kind = kind) (not_name : kind ≠ .identifier)
    (rest : List Token) :
    (token :: rest).filter Token.isName = rest.filter Token.isName :=
  List.filter_cons_of_neg (by simp [Token.isName, token_kind, not_name])

theorem filter_isName_of_name (name_kind : name.kind = .identifier) (rest : List Token) :
    (name :: rest).filter Token.isName = name :: rest.filter Token.isName :=
  List.filter_cons_of_pos (by simp [Token.isName, name_kind])

end

/-! ## All fields -/

/-- The field node of a name. -/
def fieldNode (name : Token) : Tree := .node .field [.leaf name]

theorem fieldName?_fieldNode {name : Token} (name_kind : name.kind = .identifier) :
    (fieldNode name).fieldName? = some ⟨name⟩ := by
  rw [fieldNode, Tree.fieldName?, readField_name name_kind]
  rfl

mutual

/-- The field nodes of a part are those of its names. -/
theorem IsPart.fieldNodes_eq : {tree : Tree} → IsPart tree →
    (tree.preOrder.filter fun node => node.kind == .field) =
      (tree.tokens.filter Token.isName).map fieldNode
  | .leaf token, is_part => by
      rw [Tree.tokens_leaf, filter_isName_of_kind rfl (isPart_leaf_iff.1 is_part)]
      rfl
  | .node kind children, is_part => by
      by_cases kind_eq : kind = .field
      · obtain ⟨name, name_kind⟩ := is_part.isField rfl kind_eq
        simp [filter_isName_of_name name_kind, fieldNode]
      · rw [Tree.preOrder_node, List.filter_cons_of_neg (by simpa using kind_eq),
          Tree.tokens_node]
        exact fieldNodes_eq_of_parts (is_part.children kind_eq)

theorem fieldNodes_eq_of_parts : {trees : List Tree} → (∀ tree ∈ trees, IsPart tree) →
    ((Tree.preOrderAll trees).filter fun node => node.kind == .field) =
      ((Tree.tokensAll trees).filter Token.isName).map fieldNode
  | [], _ => rfl
  | tree :: rest, all_parts => by
      obtain ⟨is_part, rest_parts⟩ := List.forall_mem_cons.1 all_parts
      rw [Tree.preOrderAll_cons, List.filter_append, Tree.tokensAll_cons, List.filter_append,
        List.map_append, is_part.fieldNodes_eq, fieldNodes_eq_of_parts rest_parts]

end

/-- The field names of a query are the names among its tokens. -/
theorem IsQuery.fieldNames_eq {root : Tree} (is_query : IsQuery root) :
    root.fieldNames.map (·.identifier) = root.tokens.filter Token.isName := by
  have read_name : ∀ name ∈ root.tokens.filter Token.isName,
      (fieldNode name).fieldName? = some ⟨name⟩ := fun name mem =>
    fieldName?_fieldNode (beq_iff_eq.1 (List.mem_filter.1 mem).2)
  have fields_only : ∀ node : Tree,
      node.fieldName? = if (node.kind == .field) = true then node.fieldName? else none := by
    intro node
    by_cases is_field : node.kind = .field <;> simp [Tree.fieldName?, is_field]
  calc
    root.fieldNames.map (·.identifier)
    _ = (root.preOrder.filterMap Tree.fieldName?).map (·.identifier) := by
        rw [Tree.fieldNames_eq_preOrder]
    _ = ((root.preOrder.filter fun node => node.kind == .field).filterMap
          Tree.fieldName?).map (·.identifier) := by
        rw [List.filterMap_filter]
        exact congrArg (List.map _) (List.filterMap_congr fun node _ => fields_only node)
    _ = ((root.tokens.filter Token.isName).filterMap fun name =>
          (fieldNode name).fieldName?).map (·.identifier) := by
        rw [(IsPart.query is_query).fieldNodes_eq, List.filterMap_map]
        rfl
    _ = root.tokens.filter Token.isName := by
        rw [List.filterMap_congr read_name, List.filterMap_eq_map', List.map_map]
        exact List.map_id _

/-! ## Selected fields -/

/-- The fields of a list are the names among its tokens. -/
theorem IsFieldList.readFields_eq {list : Tree} (is_list : IsFieldList list) :
    ∃ fields, list.readFields = .ok fields ∧
      fields.map (·.identifier) = list.tokens.filter Token.isName := by
  have read_link : ∀ {name : Token} (behind : List Tree), name.kind = .identifier → (do
        let item ← (Tree.node .fieldList (.node .field [.leaf name] :: behind)).requirePart .field
          "field"
        item.readField) = .ok ⟨name⟩ := by
    intro name behind name_kind
    have found : (Tree.node .fieldList (.node .field [.leaf name] :: behind)).part? .field =
        some (.node .field [.leaf name]) :=
      Tree.part?_of_cons rfl rfl .fieldList behind
    rw [Tree.requirePart_of_some found]
    exact readField_name name_kind
  rw [IsFieldList] at is_list
  induction is_list with
  | last item is_item =>
      obtain ⟨_, rfl, ⟨name, name_kind⟩⟩ := is_item
      have last : (Tree.node .fieldList [.node .field [.leaf name]]).part? .fieldList = none :=
        Tree.part?_eq_none (by simp) .fieldList
      refine ⟨[⟨name⟩], ?_, by simp [filter_isName_of_name name_kind]⟩
      rw [Tree.readFields, Tree.links_of_last last, List.mapM_cons, read_link [] name_kind]
      rfl
  | more item separator rest is_item mem is_rest ih =>
      obtain ⟨_, rfl, ⟨name, name_kind⟩⟩ := is_item
      obtain ⟨fields, reads, names_eq⟩ := ih
      have separator_kind := KindSet.mem_single.1 mem
      have next : (Tree.node .fieldList
          ([.node .field [.leaf name]] ++ [.leaf separator, rest])).part? .fieldList = some rest :=
        is_rest.part?_of_more (by simp) (by rw [separator_kind]; nofun)
      refine ⟨⟨name⟩ :: fields, ?_, ?_⟩
      · rw [Tree.readFields] at reads ⊢
        rw [Tree.links_of_next next, List.mapM_cons, List.singleton_append,
          read_link _ name_kind, reads]
        rfl
      · simp [names_eq, filter_isName_of_name name_kind,
          filter_isName_of_kind separator_kind nofun]

theorem IsFieldList.kind_ne_from {list : Tree} (is_list : IsFieldList list) :
    ∀ token ∈ list.tokens, token.kind ≠ .fromKw := by
  rw [IsFieldList] at is_list
  induction is_list with
  | last item is_item =>
      obtain ⟨_, rfl, ⟨name, name_kind⟩⟩ := is_item
      simp [name_kind]
  | more item separator rest is_item mem is_rest ih =>
      obtain ⟨_, rfl, ⟨name, name_kind⟩⟩ := is_item
      simpa [name_kind, KindSet.mem_single.1 mem] using ih

theorem IsHead.selectedFields_eq {source kind : Kind} {head : List Tree}
    (is_head : IsHead source head) (rest : List Tree) :
    (Tree.node kind (head ++ rest)).selectedFields.map (·.identifier) =
      ((Tree.tokensAll (head ++ rest)).takeWhile (·.kind != .fromKw)).filter Token.isName := by
  obtain ⟨select, list, origin, place, select_kind, is_list, origin_kind, -⟩ := is_head
  obtain ⟨fields, reads, names_eq⟩ := is_list.readFields_eq
  have list_node : list.node? = some list := by
    obtain _ | _ := is_list <;> rfl
  have select_lacks : ∀ tree ∈ [Tree.leaf select], tree.kind ≠ .fieldList := by
    simp [select_kind]
  have found : (Tree.node kind (.leaf select :: list :: .leaf origin :: .leaf place :: rest)).part?
      .fieldList = some list :=
    Tree.part?_of_append select_lacks list_node (IsChain.kind_eq is_list) kind _
  have front_eq : (select :: (list.tokens ++ origin :: place :: Tree.tokensAll rest)).takeWhile
      (·.kind != .fromKw) = select :: list.tokens := by
    have list_inside : ∀ token ∈ list.tokens, (token.kind != .fromKw) = true := by
      simpa using is_list.kind_ne_from
    rw [List.takeWhile_cons_of_pos (by simp [select_kind]),
      List.takeWhile_append_of_pos list_inside, List.takeWhile_cons_of_neg (by simp [origin_kind]),
      List.append_nil]
  simp only [List.cons_append, List.nil_append, Tree.tokensAll_cons, Tree.tokens_leaf]
  rw [front_eq, filter_isName_of_kind select_kind nofun, Tree.selectedFields, found]
  simp only [reads]
  exact names_eq

/-- The fields that a query selects are the names before its `FROM`. -/
theorem IsQuery.selectedFields_eq {root : Tree} (is_query : IsQuery root) :
    root.selectedFields.map (·.identifier) =
      (root.tokens.takeWhile (·.kind != .fromKw)).filter Token.isName := by
  cases is_query with
  | flat head filter date is_head is_filter is_date =>
      rw [List.append_assoc]
      exact is_head.selectedFields_eq (filter ++ date)
  | link kind head filter clauses is_head is_filter is_clauses =>
      rw [List.append_assoc]
      exact is_head.selectedFields_eq (filter ++ clauses)

end Grammar
end WorkItemQuery
