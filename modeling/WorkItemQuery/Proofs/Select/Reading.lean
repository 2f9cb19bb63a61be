import WorkItemQuery.Proofs.Grammar.Layout
import WorkItemQuery.Proofs.Select.Roles
import WorkItemQuery.Select.Printer

/-!
# Derivation trees as queries

Every part of a derivation tree is read as a part of a query, and the text of that part is the
layout of the tree: no child that is printed is lost, and none is taken for another.
-/

namespace WorkItemQuery

open WorkItemQuery.Tree (layoutAll firstOf tightNodes opening closing)

/-! ## Canonical spellings -/

section

variable {token : Token}

theorem canonicalText_of_kind {kind : Kind} {text : String} (kind_eq : token.kind = kind)
    (text_eq : kind.canonicalText? = some text) : token.canonicalText = text := by
  rw [Token.canonicalText, kind_eq, text_eq, Option.getD_some]

theorem canonicalText_of_open {kind : Kind} (kind_eq : token.kind = kind)
    (open_text : kind.canonicalText? = none) : token.canonicalText = token.text := by
  rw [Token.canonicalText, kind_eq, open_text, Option.getD_none]

end

namespace Grammar

/-! ## Fields and values -/

theorem IsField.node?_eq {tree : Tree} (is_field : IsField tree) : tree.node? = some tree := by
  cases is_field
  rfl

/-- A field node is read as its name. -/
theorem readField_name {name : Token} (name_kind : name.kind = .identifier) :
    (Tree.node .field [.leaf name]).readField = .ok ⟨name⟩ := by
  have found : (Tree.node .field [.leaf name]).tokenInput? (.single .identifier) = some name := by
    rw [Tree.tokenInput?_node, Tree.firstOf_leaf_of_mem (KindSet.mem_single.2 name_kind)]
    rfl
  rw [Tree.readField, Tree.requireToken_of_some found]
  rfl

theorem IsField.reads {tree : Tree} (is_field : IsField tree) :
    ∃ field, tree.readField = .ok field ∧ field.text.toList = tree.layout := by
  cases is_field with
  | name name name_kind =>
      refine ⟨⟨name⟩, readField_name name_kind, ?_⟩
      rw [FieldName.text, Tree.layout_node, Tree.layoutAll_single, Tree.layout_leaf,
        canonicalText_of_open name_kind rfl]

theorem readNumber_plain {digits : Token} (digits_kind : digits.kind = .digits) :
    (Tree.node .number [.leaf digits]).readNumber = .ok ⟨none, digits⟩ := by
  have no_minus : digits.kind ∉ KindSet.single .minus := by
    rw [digits_kind]
    decide
  have found : (Tree.node .number [.leaf digits]).tokenInput? (.single .digits) = some digits := by
    rw [Tree.tokenInput?_node, Tree.firstOf_leaf_of_mem (KindSet.mem_single.2 digits_kind)]
    rfl
  have absent : (Tree.node .number [.leaf digits]).tokenInput? (.single .minus) = none := by
    rw [Tree.tokenInput?_node, Tree.firstOf_leaf_of_notMem no_minus]
    rfl
  rw [Tree.readNumber, Tree.requireToken_of_some found, absent]
  rfl

theorem readNumber_negative {minus digits : Token} (minus_kind : minus.kind = .minus)
    (digits_kind : digits.kind = .digits) :
    (Tree.node .number [.leaf minus, .leaf digits]).readNumber = .ok ⟨some minus, digits⟩ := by
  have not_digits : minus.kind ∉ KindSet.single .digits := by
    rw [minus_kind]
    decide
  have found : (Tree.node .number [.leaf minus, .leaf digits]).tokenInput? (.single .digits) =
      some digits := by
    rw [Tree.tokenInput?_node, Tree.firstOf_leaf_of_notMem not_digits,
      Tree.firstOf_leaf_of_mem (KindSet.mem_single.2 digits_kind)]
    rfl
  have present : (Tree.node .number [.leaf minus, .leaf digits]).tokenInput? (.single .minus) =
      some minus := by
    rw [Tree.tokenInput?_node, Tree.firstOf_leaf_of_mem (KindSet.mem_single.2 minus_kind)]
    rfl
  rw [Tree.readNumber, Tree.requireToken_of_some found, present]
  rfl

theorem IsNumber.reads {tree : Tree} (is_number : IsNumber tree) :
    ∃ number, tree.readNumber = .ok number ∧ number.text.toList = tree.layout := by
  cases is_number with
  | plain digits digits_kind =>
      refine ⟨⟨none, digits⟩, readNumber_plain digits_kind, ?_⟩
      simp [Number.text, canonicalText_of_open digits_kind rfl]
  | negative minus digits minus_kind digits_kind =>
      refine ⟨⟨some minus, digits⟩, readNumber_negative minus_kind digits_kind, ?_⟩
      rw [Tree.layout_node, Tree.layoutAll_tight (.inl (by decide)), Tree.layoutAll_single,
        Tree.layout_leaf, Tree.layout_leaf, canonicalText_of_kind minus_kind rfl,
        canonicalText_of_open digits_kind rfl]
      simp [Number.text]

theorem IsDate.reads {tree : Tree} (is_date : IsDate tree) :
    ∃ literal, tree.readDate = .ok literal ∧ literal.text.toList = tree.layout := by
  cases is_date with
  | literal text text_kind =>
      have found : (Tree.node .dateTime [.leaf text]).tokenInput? (.single .string) =
          some text := by
        rw [Tree.tokenInput?_node, Tree.firstOf_leaf_of_mem (KindSet.mem_single.2 text_kind)]
        rfl
      refine ⟨text, Tree.requireToken_of_some found _, ?_⟩
      rw [Tree.layout_node, Tree.layoutAll_single, Tree.layout_leaf,
        canonicalText_of_open text_kind rfl]

theorem IsTerm.reads {tree : Tree} (is_term : IsTerm tree) :
    ∃ term, tree.readTerm? = some (.ok term) ∧ term.text.toList = tree.layout := by
  cases is_term with
  | number tree is_number =>
      obtain ⟨number, reads, text_eq⟩ := is_number.reads
      refine ⟨.number number, ?_, text_eq⟩
      have read_eq : tree.readTerm? = some (.number <$> tree.readNumber) := by
        cases is_number <;> rfl
      rw [read_eq, reads]
      rfl
  | field tree is_field =>
      obtain ⟨field, reads, text_eq⟩ := is_field.reads
      refine ⟨.field field, ?_, text_eq⟩
      have read_eq : tree.readTerm? = some (.field <$> tree.readField) := by
        cases is_field
        rfl
      rw [read_eq, reads]
      rfl
  | simple token mem =>
      rw [simpleTerms, KindSet.mem_ofList] at mem
      simp only [List.mem_cons, List.not_mem_nil, or_false] at mem
      obtain kind_eq | kind_eq | kind_eq | kind_eq := mem
      · refine ⟨.string token, by simp [Tree.readTerm?, kind_eq], ?_⟩
        rw [Term.text, Tree.layout_leaf, canonicalText_of_open kind_eq rfl]
      · refine ⟨.variableRef token, by simp [Tree.readTerm?, kind_eq], ?_⟩
        rw [Term.text, Tree.layout_leaf, canonicalText_of_open kind_eq rfl]
      · exact ⟨.boolean token, by simp [Tree.readTerm?, kind_eq], rfl⟩
      · exact ⟨.boolean token, by simp [Tree.readTerm?, kind_eq], rfl⟩

/-- The term of a value is its first child. -/
theorem IsTerm.readTerm_eq {term : Tree} (is_term : IsTerm term) (rest : List Tree) :
    (Tree.node .value (term :: rest)).readTerm =
      (Tree.node .value (term :: rest)).require term.readTerm? "value" >>= id := by
  have found : (Tree.node .value (term :: rest)).input? .valueKinds = some term := by
    rw [Tree.input?_node, Tree.firstOf_cons_of_mem is_term.mem_valueKinds.1]
  rw [Tree.readTerm, found]
  rfl

/-- A value with a sign is read as the term before the sign and the number behind it, also when
the term is a number itself. -/
theorem readValue_shifted {term offset : Tree} {sign : Token} {read : Term} {number : Number}
    (is_term : IsTerm term) (sign_mem : sign.kind ∈ KindSet.plusMinus) (is_number : IsNumber offset)
    (reads : term.readTerm? = some (.ok read)) (reads_number : offset.readNumber = .ok number) :
    (Tree.node .value [term, .leaf sign, offset]).readValue =
      .ok ⟨read, some (sign, number)⟩ := by
  have sign_found : (Tree.node .value [term, .leaf sign, offset]).tokenInput? .plusMinus =
      some sign := by
    rw [Tree.tokenInput?_node, Tree.firstOf_cons_of_notMem is_term.mem_valueKinds.2,
      Tree.firstOf_leaf_of_mem sign_mem]
    rfl
  have offset_found := offsetNumber?_shifted is_term sign_mem is_number
  rw [Tree.readValue, is_term.readTerm_eq, reads, sign_found, offset_found]
  simp only [Tree.require]
  rw [reads_number]
  rfl

theorem IsValue.reads {tree : Tree} (is_value : IsValue tree) :
    ∃ value, tree.readValue = .ok value ∧ value.text.toList = tree.layout := by
  cases is_value with
  | plain term is_term =>
      obtain ⟨read, reads, text_eq⟩ := is_term.reads
      have no_sign : (Tree.node .value [term]).tokenInput? .plusMinus = none := by
        rw [Tree.tokenInput?_node, Tree.firstOf_cons_of_notMem is_term.mem_valueKinds.2]
        rfl
      refine ⟨⟨read, none⟩, ?_, ?_⟩
      · rw [Tree.readValue, is_term.readTerm_eq, reads, no_sign]
        rfl
      · rw [Tree.layout_node, Tree.layoutAll_single, ← text_eq]
        rfl
  | shifted term sign offset is_term sign_mem is_number =>
      obtain ⟨read, reads, text_eq⟩ := is_term.reads
      obtain ⟨number, reads_number, number_text⟩ := is_number.reads
      have sign_free : Tree.IsFree sign.kind := by
        have signs : ∀ kind ∈ KindSet.plusMinus, Tree.IsFree kind := by decide
        exact signs _ sign_mem
      have term_gap : Tree.isSpaced .value term.kind sign.kind = true :=
        Tree.isSpaced_eq_true (by decide) is_term.isFree.1 sign_free.2
      have sign_gap : Tree.isSpaced .value sign.kind offset.kind = true :=
        Tree.isSpaced_eq_true (by decide) sign_free.1 is_number.isFree.2
      refine ⟨⟨read, some (sign, number)⟩,
        readValue_shifted is_term sign_mem is_number reads reads_number, ?_⟩
      simp [Value.text, Tree.layoutAll_cons_cons, term_gap, sign_gap, text_eq, number_text]

/-! ## Lists -/

theorem commaSeparated_cons_cons (text next : String) (texts : List String) :
    commaSeparated (text :: next :: texts) = text ++ ", " ++ commaSeparated (next :: texts) :=
  String.intercalate_cons_cons

/-- An item is read to a value from the nodes of a chain that it may stand in, whatever follows it
there, and the text of the value is the layout of the item. -/
structure ReadsItem {α : Type} (kind : Kind) (read : Tree → Except BrokenRole α)
    (text : α → String) (item : List Tree) : Prop where
  /-- The item is not empty. -/
  not_nil : item ≠ []
  /-- The rest of the chain is no part of the item. -/
  no_link : ∀ child ∈ item, child.kind ≠ kind
  /-- The item is read. -/
  reads : ∀ behind : List Tree, (∀ next ∈ behind, next.kind = .comma ∨ next.kind = kind) →
    ∃ value, read (.node kind (item ++ behind)) = .ok value ∧
      (text value).toList = layoutAll kind item

/-- An item that is one node is read from the part of its kind. -/
theorem ReadsItem.of_part {α : Type} {kind role : Kind} {name : String}
    {read : Tree → Except BrokenRole α} {text : α → String} {child : Tree} {value : α}
    (is_node : child.node? = some child) (child_kind : child.kind = role) (role_ne : role ≠ kind)
    (reads : read child = .ok value) (text_eq : (text value).toList = child.layout) :
    ReadsItem kind (fun link => do
      let item ← link.requirePart role name
      read item) text [child] := by
  refine ⟨nofun, by simpa [child_kind] using role_ne, fun behind _ => ⟨value, ?_, ?_⟩⟩
  · rw [List.singleton_append,
      Tree.requirePart_of_some (Tree.part?_of_cons is_node child_kind kind behind)]
    exact reads
  · rw [text_eq, Tree.layoutAll_single]

/-- The rest of a chain is the part of its kind. -/
theorem IsChain.part?_of_more {kind : Kind} {separators : KindSet} {IsItem : List Tree → Prop}
    {item : List Tree} {separator : Token} {rest : Tree}
    (is_rest : IsChain kind separators IsItem rest) (no_link : ∀ child ∈ item, child.kind ≠ kind)
    (separator_kind : separator.kind ≠ kind) :
    (Tree.node kind (item ++ [.leaf separator, rest])).part? kind = some rest := by
  have rest_node : rest.node? = some rest := by
    cases is_rest <;> rfl
  rw [← List.singleton_append, ← List.append_assoc]
  refine Tree.part?_of_append (fun child mem => ?_) rest_node is_rest.kind_eq kind []
  obtain mem | mem := List.mem_append.1 mem
  · exact no_link child mem
  · rw [List.mem_singleton.1 mem]
    exact separator_kind

/-- The values that are read from the nodes of a chain, with commas between them, are the chain. -/
theorem IsChain.reads {α : Type} {kind : Kind} {IsItem : List Tree → Prop} {tree : Tree}
    {read : Tree → Except BrokenRole α} {text : α → String}
    (is_chain : IsChain kind (.single .comma) IsItem tree) (loose : kind ∉ tightNodes)
    (not_closing : kind ∉ closing) (not_comma : kind ≠ .comma)
    (item_reads : ∀ item, IsItem item → ReadsItem kind read text item) :
    ∃ values, (tree.links kind).mapM read = .ok values ∧ values ≠ [] ∧
      (commaSeparated (values.map text)).toList = tree.layout := by
  induction is_chain with
  | last item is_item =>
      obtain ⟨-, no_link, reads⟩ := item_reads item is_item
      obtain ⟨value, reads, text_eq⟩ := reads [] nofun
      rw [List.append_nil] at reads
      have last := Tree.part?_eq_none no_link kind
      refine ⟨[value], ?_, nofun, text_eq⟩
      rw [Tree.links_of_last last, List.mapM_cons, reads, List.mapM_nil]
      rfl
  | more item separator rest is_item is_comma is_rest ih =>
      obtain ⟨values, values_eq, not_nil, values_text⟩ := ih
      have separator_kind := KindSet.mem_single.1 is_comma
      have rest_kind := is_rest.kind_eq
      obtain ⟨item_not_nil, no_link, reads⟩ := item_reads item is_item
      obtain ⟨value, reads, text_eq⟩ :=
        reads [.leaf separator, rest] (by simp [separator_kind, rest_kind])
      have next := is_rest.part?_of_more no_link (separator_kind ▸ not_comma.symm)
      have is_closing : separator.kind ∈ closing := by
        rw [separator_kind]
        decide
      have rest_gap : Tree.isSpaced kind separator.kind rest.kind = true := by
        rw [separator_kind, rest_kind]
        exact Tree.isSpaced_eq_true loose (by decide) not_closing
      refine ⟨value :: values, ?_, nofun, ?_⟩
      · rw [Tree.links_of_next next, List.mapM_cons, reads, values_eq]
        rfl
      · obtain ⟨second, values, rfl⟩ := List.exists_cons_of_ne_nil not_nil
        rw [List.map_cons, List.map_cons, commaSeparated_cons_cons, ← List.map_cons,
          Tree.layout_node, Tree.layoutAll_append_closing item_not_nil is_closing,
          String.toList_append, String.toList_append, text_eq, values_text]
        simp [Tree.layoutAll_cons_cons, rest_gap, canonicalText_of_kind separator_kind rfl]

theorem IsFieldList.reads {tree : Tree} (is_list : IsFieldList tree) :
    ∃ fields, tree.readFields = .ok fields ∧
      (commaSeparated (fields.map FieldName.text)).toList = tree.layout := by
  have item_reads : ∀ item, (∃ field, item = [field] ∧ IsField field) →
      ReadsItem .fieldList (fun link => do
        let item ← link.requirePart .field "field"
        item.readField) FieldName.text item := by
    rintro _ ⟨field, rfl, is_field⟩
    obtain ⟨read, reads, text_eq⟩ := is_field.reads
    exact .of_part is_field.node?_eq is_field.kind_eq nofun reads text_eq
  obtain ⟨fields, fields_eq, -, text_eq⟩ :=
    IsChain.reads is_list (by decide) (by decide) nofun item_reads
  exact ⟨fields, fields_eq, text_eq⟩

theorem IsValue.node?_eq {tree : Tree} (is_value : IsValue tree) : tree.node? = some tree := by
  cases is_value <;> rfl

theorem IsValueList.reads {tree : Tree} (is_list : IsValueList tree) :
    ∃ values, tree.readValues = .ok values ∧
      (commaSeparated (values.map Value.text)).toList = tree.layout := by
  have item_reads : ∀ item, (∃ value, item = [value] ∧ IsValue value) →
      ReadsItem .valueList (fun link => do
        let item ← link.requirePart .value "value"
        item.readValue) Value.text item := by
    rintro _ ⟨value, rfl, is_value⟩
    obtain ⟨read, reads, text_eq⟩ := is_value.reads
    exact .of_part is_value.node?_eq is_value.kind_eq nofun reads text_eq
  obtain ⟨values, values_eq, -, text_eq⟩ :=
    IsChain.reads is_list (by decide) (by decide) nofun item_reads
  exact ⟨values, values_eq, text_eq⟩

/-! ## Optional words -/

theorem IsOptional.kind_mem {kinds : KindSet} {trees : List Tree} {tree : Tree}
    (is_optional : IsOptional kinds trees) (mem : tree ∈ trees) : tree.kind ∈ kinds := by
  cases is_optional with
  | absent => cases mem
  | present token token_mem =>
      rw [List.mem_singleton.1 mem]
      exact token_mem

/-- An optional word before other children is found, and stands before them. -/
theorem IsOptional.reads {kinds : KindSet} {words rest : List Tree} {parent : Kind} {next : Tree}
    (is_optional : IsOptional kinds words) (loose : parent ∉ tightNodes)
    (not_opening : ∀ kind ∈ kinds, kind ∉ opening) (not_closing : next.kind ∉ closing)
    (no_word : ∀ child ∈ next :: rest, child.kind ∉ kinds) :
    layoutAll parent (words ++ next :: rest) =
      (wordBefore ((Tree.node parent (words ++ next :: rest)).tokenInput? kinds)).toList ++
        layoutAll parent (next :: rest) := by
  cases is_optional with
  | absent =>
      rw [List.nil_append, Tree.tokenInput?_node, Tree.firstOf_eq_none no_word]
      rfl
  | present token mem =>
      have token_not_opening : (Tree.leaf token).kind ∉ opening := not_opening _ mem
      rw [List.singleton_append, Tree.tokenInput?_node, Tree.firstOf_leaf_of_mem mem,
        Tree.layoutAll_spaced loose token_not_opening not_closing]
      simp [Tree.token?, wordBefore]

/-- The rest of the children plays its roles behind an optional word as without it. -/
theorem IsOptional.firstOf_append {kinds others : KindSet} {words : List Tree}
    (is_optional : IsOptional kinds words) (apart : ∀ kind ∈ kinds, kind ∉ others)
    (rest : List Tree) : firstOf others (words ++ rest) = firstOf others rest :=
  Tree.firstOf_append_of_none (fun _ mem => apart _ (is_optional.kind_mem mem)) rest

theorem IsOptional.part?_append {kinds : KindSet} {words : List Tree} {role : Kind}
    (is_optional : IsOptional kinds words) (not_word : role ∉ kinds) (kind : Kind)
    (rest : List Tree) :
    (Tree.node kind (words ++ rest)).part? role = (Tree.node kind rest).part? role := by
  refine Tree.part?_append (fun tree mem kind_eq => not_word ?_) kind rest
  exact kind_eq ▸ is_optional.kind_mem mem

/-! ## Operators -/

theorem Operator.text_of_kind {kind : Kind} (not_words : kind ≠ .containsWords)
    (not_group : kind ≠ .inGroup) (ever? : Option Token) :
    Operator.text ⟨kind, ever?, none⟩ = kind.canonicalText?.getD "" := by
  cases kind <;> simp_all [Operator.text]

theorem IsOperatorProper.text_eq {tree : Tree} (is_proper : IsOperatorProper tree)
    (ever? : Option Token) : (Operator.text ⟨tree.kind, ever?, none⟩).toList = tree.layout := by
  cases is_proper with
  | single token choice =>
      have operators : ∀ kind : Kind, kind ∈ KindSet.comparisonOperators ∨ kind = .everKw ∨
          kind = .containsKw → kind ≠ .containsWords ∧ kind ≠ .inGroup ∧
            kind.canonicalText?.isSome := by
        decide
      obtain ⟨not_words, not_group, fixed⟩ := operators _ choice
      obtain ⟨text, text_eq⟩ := Option.isSome_iff_exists.1 fixed
      rw [Tree.kind_leaf, Operator.text_of_kind not_words not_group, text_eq, Tree.layout_leaf,
        canonicalText_of_kind rfl text_eq, Option.getD_some]
  | containsWords contains words contains_kind words_kind =>
      have gap : Tree.isSpaced .containsWords contains.kind words.kind = true := by
        rw [contains_kind, words_kind]
        rfl
      simp [Operator.text, Tree.layoutAll_cons_cons, gap, canonicalText_of_kind contains_kind rfl,
        canonicalText_of_kind words_kind rfl]
  | inGroup word group word_kind group_kind =>
      have gap : Tree.isSpaced .inGroup word.kind group.kind = true := by
        rw [word_kind, group_kind]
        rfl
      simp [Operator.text, Tree.layoutAll_cons_cons, gap, canonicalText_of_kind word_kind rfl,
        canonicalText_of_kind group_kind rfl]

theorem IsOperator.node?_eq {tree : Tree} (is_operator : IsOperator tree) :
    tree.node? = some tree := by
  cases is_operator
  rfl

theorem IsOperator.reads {tree : Tree} (is_operator : IsOperator tree) :
    ∃ operator, tree.readOperator = .ok operator ∧ operator.text.toList = tree.layout := by
  cases is_operator with
  | operator negation proper is_negation is_proper =>
      have proper_kind : proper.kind ≠ .notKw := by
        have kinds : ∀ kind ∈ KindSet.conditionTokens, kind ≠ .notKw := by decide
        exact kinds _ is_proper.kind_mem
      cases is_negation with
      | absent =>
          rw [List.nil_append]
          refine ⟨⟨proper.kind, (Tree.node .operator [proper]).tokenInput? (.single .everKw), none⟩,
            ?_, ?_⟩
          · rw [Tree.readOperator, Tree.input?_node, Tree.firstOf_cons_of_mem is_proper.kind_mem,
              Tree.tokenInput?_node _ _ (.single .notKw),
              Tree.firstOf_cons_of_notMem (by simpa using proper_kind)]
            rfl
          · rw [is_proper.text_eq, Tree.layout_node, Tree.layoutAll_single]
      | present word mem =>
          have word_kind := KindSet.mem_single.1 mem
          have gap : Tree.isSpaced .operator word.kind proper.kind = true := by
            rw [word_kind]
            exact Tree.isSpaced_eq_true (by decide) (by decide) is_proper.isFree.2
          refine ⟨⟨proper.kind,
            (Tree.node .operator [.leaf word, proper]).tokenInput? (.single .everKw), some word⟩,
            ?_, ?_⟩
          · have not_proper : word.kind ∉ KindSet.conditionTokens := by
              rw [word_kind]
              decide
            rw [Tree.readOperator, List.singleton_append, Tree.input?_node,
              Tree.firstOf_leaf_of_notMem not_proper, Tree.firstOf_cons_of_mem is_proper.kind_mem,
              Tree.tokenInput?_node _ _ (.single .notKw), Tree.firstOf_leaf_of_mem mem]
            rfl
          · have text_eq := is_proper.text_eq none
            simp only [Operator.text] at text_eq ⊢
            simp [Tree.layoutAll_cons_cons, gap, canonicalText_of_kind word_kind rfl, ← text_eq]

/-! ## Sides -/

theorem IsSide.node?_eq {tree : Tree} (is_side : IsSide tree) : tree.node? = some tree := by
  cases is_side <;> rfl

theorem IsSide.reads {tree : Tree} (is_side : IsSide tree) :
    ∃ side, tree.readSide = .ok side ∧ (Side.text? (some side)).toList = tree.layout := by
  cases is_side with
  | source word dot word_kind dot_kind =>
      have found : (Tree.node .sourceSide [.leaf word, .leaf dot]).tokenInput?
          (.single .sourceKw) = some word := by
        rw [Tree.tokenInput?_node, Tree.firstOf_leaf_of_mem (KindSet.mem_single.2 word_kind)]
        rfl
      refine ⟨⟨.source, word, (Tree.node .sourceSide [.leaf word, .leaf dot]).span?⟩, ?_, ?_⟩
      · rw [Tree.readSide, if_pos (Tree.kind_node _ _), Tree.requireToken_of_some found]
        rfl
      · rw [Tree.layout_node, Tree.layoutAll_tight (.inl (by decide))]
        simp [Side.text?, canonicalText_of_kind dot_kind rfl]
  | target word dot word_kind dot_kind =>
      have found : (Tree.node .targetSide [.leaf word, .leaf dot]).tokenInput?
          (.single .targetKw) = some word := by
        rw [Tree.tokenInput?_node, Tree.firstOf_leaf_of_mem (KindSet.mem_single.2 word_kind)]
        rfl
      refine ⟨⟨.target, word, (Tree.node .targetSide [.leaf word, .leaf dot]).span?⟩, ?_, ?_⟩
      · rw [Tree.readSide, if_neg nofun, Tree.requireToken_of_some found]
        rfl
      · rw [Tree.layout_node, Tree.layoutAll_tight (.inl (by decide))]
        simp [Side.text?, canonicalText_of_kind dot_kind rfl]

section

variable {form : Dialect} {side rest : List Tree}

theorem IsOptionalSide.kind_mem {tree : Tree} (is_side : IsOptionalSide form side)
    (mem : tree ∈ side) : tree.kind ∈ KindSet.sideNode := by
  cases is_side with
  | absent => cases mem
  | present side _ is_side =>
      rw [List.mem_singleton.1 mem]
      exact is_side.kind_mem

/-- A side of a link plays no other role. -/
theorem IsOptionalSide.firstOf_append (is_side : IsOptionalSide form side) {kinds : KindSet}
    (others : ∀ kind ∈ KindSet.sideNode, kind ∉ kinds) (rest : List Tree) :
    firstOf kinds (side ++ rest) = firstOf kinds rest :=
  Tree.firstOf_append_of_none (fun _ mem => others _ (is_side.kind_mem mem)) rest

/-- The side before other children is read, and stands right before them. -/
theorem IsOptionalSide.reads (is_side : IsOptionalSide form side) (parent : Kind) :
    ∃ side?, (∀ rest, (∀ child ∈ rest, child.kind ∉ KindSet.sideNode) →
        (Tree.node parent (side ++ rest)).readSideOf form = .ok side?) ∧
      ∀ next rest, layoutAll parent (side ++ next :: rest) =
        (Side.text? side?).toList ++ layoutAll parent (next :: rest) := by
  cases is_side with
  | absent =>
      refine ⟨none, fun rest no_side => ?_, fun next rest => rfl⟩
      have not_found : (Tree.node parent rest).nodeInput? .sideNode = none := by
        rw [Tree.nodeInput?_node, Tree.firstOf_eq_none no_side]
        rfl
      rw [List.nil_append, Tree.readSideOf, not_found]
      split <;> rfl
  | present side has_sides is_side =>
      obtain ⟨read, reads, text_eq⟩ := is_side.reads
      refine ⟨some read, fun rest _ => ?_, fun next rest => ?_⟩
      · have found : (Tree.node parent (side :: rest)).nodeInput? .sideNode = some side := by
          rw [Tree.nodeInput?_node, Tree.firstOf_cons_of_mem is_side.kind_mem]
          exact is_side.node?_eq
        rw [List.singleton_append, Tree.readSideOf, if_pos has_sides, found]
        simp only [reads]
        rfl
      · rw [List.singleton_append, Tree.layoutAll_tight (.inr (.inl is_side.kind_mem_opening)),
          text_eq]

end

/-! ## Conditions -/

theorem IsCondition.node?_eq {form : Dialect} {tree : Tree} (is_condition : IsCondition form tree) :
    tree.node? = some tree := by
  cases is_condition <;> rfl

theorem IsExpression.node?_eq {form : Dialect} {tree : Tree}
    (is_expression : IsExpression form tree) : tree.node? = some tree := by
  cases is_expression <;> rfl

theorem IsForm.expression_notMem {form : Dialect} (is_form : IsForm form) :
    form.expression ∉ KindSet.sideNode := by
  obtain rfl | rfl := is_form <;> decide

section

variable {form : Dialect} {side : List Tree} {field : Tree}

theorem IsOptionalSide.kind_ne (is_side : IsOptionalSide form side) {role : Kind}
    (not_side : role ∉ KindSet.sideNode) : ∀ tree ∈ side, tree.kind ≠ role :=
  fun _ mem kind_eq => not_side (kind_eq ▸ is_side.kind_mem mem)

theorem IsOptionalSide.part?_append (is_side : IsOptionalSide form side) {role : Kind}
    (not_side : role ∉ KindSet.sideNode) (kind : Kind) (rest : List Tree) :
    (Tree.node kind (side ++ rest)).part? role = (Tree.node kind rest).part? role :=
  Tree.part?_append (is_side.kind_ne not_side) kind rest

theorem IsOptionalSide.tokenInput?_append (is_side : IsOptionalSide form side) {role : Kind}
    (not_side : role ∉ KindSet.sideNode) (kind : Kind) (rest : List Tree) :
    (Tree.node kind (side ++ rest)).tokenInput? (.single role) =
      (Tree.node kind rest).tokenInput? (.single role) :=
  Tree.tokenInput?_append (is_side.kind_ne not_side) kind rest

variable {negation : List Tree}

/-- A side, a field and a `NOT` behind it play no other role. -/
theorem front_kind_ne (is_side : IsOptionalSide form side) (is_field : IsField field)
    (is_negation : IsOptional (.single .notKw) negation) {role : Kind}
    (others : role ∉ KindSet.sideNode ∧ role ≠ .field ∧ role ≠ .notKw) :
    ∀ tree ∈ side ++ field :: negation, tree.kind ≠ role := by
  obtain ⟨not_side, not_field, not_negation⟩ := others
  refine List.forall_mem_append.2 ⟨is_side.kind_ne not_side, List.forall_mem_cons.2 ⟨?_, ?_⟩⟩
  · rw [is_field.kind_eq]
    exact not_field.symm
  · intro tree mem
    rw [KindSet.mem_single.1 (is_negation.kind_mem mem)]
    exact not_negation.symm

/-- A field with an operator and a value. -/
theorem reads_compare {operator value : Tree} (is_form : IsForm form)
    (is_side : IsOptionalSide form side) (is_field : IsField field)
    (is_operator : IsOperator operator) (is_value : IsValue value) :
    ∃ condition, (Tree.node form.condition (side ++ [field, operator, value])).readLeaf form =
        .ok condition ∧
      condition.text.toList = layoutAll form.condition (side ++ [field, operator, value]) := by
  obtain ⟨name, reads_name, name_text⟩ := is_field.reads
  obtain ⟨relation, reads_relation, relation_text⟩ := is_operator.reads
  obtain ⟨right, reads_right, right_text⟩ := is_value.reads
  have no_side : ∀ child ∈ [field, operator, value], child.kind ∉ KindSet.sideNode := by
    simp only [List.forall_mem_cons, is_field.kind_eq, is_operator.kind_eq, is_value.kind_eq]
    exact ⟨by decide, by decide, by decide, nofun⟩
  obtain ⟨side?, reads_side, side_text⟩ := is_side.reads form.condition
  have found_field := Tree.part?_of_append (is_side.kind_ne (by decide)) is_field.node?_eq
    is_field.kind_eq form.condition [operator, value]
  have behind : side ++ [field, operator, value] = side ++ [field] ++ [operator, value] := by simp
  have found_operator : (Tree.node form.condition (side ++ [field, operator, value])).part?
      .operator = some operator := by
    rw [behind, Tree.part?_append (front_kind_ne is_side is_field .absent (by decide))]
    exact Tree.part?_of_cons is_operator.node?_eq is_operator.kind_eq ..
  have found_value : (Tree.node form.condition (side ++ [field, operator, value])).part? .value =
      some value := by
    rw [behind, Tree.part?_append (front_kind_ne is_side is_field .absent (by decide)),
      ← List.singleton_append]
    exact Tree.part?_of_append (by simp [is_operator.kind_eq]) is_value.node?_eq is_value.kind_eq ..
  refine ⟨_, Tree.readLeaf_of_compare found_field found_operator found_value
    (reads_side _ no_side) reads_name reads_relation reads_right, ?_⟩
  have loose := (is_form.isFree (.inl rfl)).1
  have field_gap : Tree.isSpaced form.condition field.kind operator.kind = true :=
    Tree.isSpaced_eq_true loose is_field.isFree.1 is_operator.isFree.2
  have value_gap : Tree.isSpaced form.condition operator.kind value.kind = true :=
    Tree.isSpaced_eq_true loose is_operator.isFree.1 is_value.isFree.2
  rw [side_text]
  simp [Condition.text, Comparison.text, Tree.layoutAll_cons_cons, field_gap, value_gap,
    name_text, relation_text, right_text]

section

variable {word opened closed : Token} {values : Tree}

/-- The text of a field with `IN` or `NOT IN` and a list of values. -/
theorem text_member (is_form : IsForm form) (is_field : IsField field)
    (is_negation : IsOptional (.single .notKw) negation) (word_kind : word.kind = .inKw)
    (opened_kind : opened.kind = .leftParen) (values_kind : values.kind = .valueList)
    (closed_kind : closed.kind = .rightParen) {name : FieldName} {read : List Value}
    (name_text : name.text.toList = field.layout)
    (values_text : (commaSeparated (read.map Value.text)).toList = values.layout) :
    (Comparison.text ⟨name, (firstOf (.single .notKw)
        (negation ++ [.leaf word, .leaf opened, values, .leaf closed])).bind Tree.token?,
        .member word read⟩).toList =
      layoutAll form.condition
        (field :: (negation ++ [.leaf word, .leaf opened, values, .leaf closed])) := by
  have loose := (is_form.isFree (.inl rfl)).1
  have field_gap : ∀ next, Tree.IsFree next → Tree.isSpaced form.condition .field next = true :=
    fun next free => Tree.isSpaced_eq_true loose (by decide) free.2
  have inside : Tree.isSpaced form.condition .notKw .inKw = true ∧
      Tree.isSpaced form.condition .inKw .leftParen = true ∧
      Tree.isSpaced form.condition .leftParen .valueList = false ∧
      Tree.isSpaced form.condition .valueList .rightParen = false := by
    obtain rfl | rfl := is_form <;> decide
  cases is_negation with
  | absent =>
      have word_gap := field_gap .inKw (by decide)
      simp [Comparison.text, firstOf, KindSet.single, is_field.kind_eq, word_kind, opened_kind,
        values_kind, closed_kind, Tree.layoutAll_cons_cons, word_gap, inside, name_text,
        values_text, canonicalText_of_kind opened_kind rfl, canonicalText_of_kind closed_kind rfl]
  | present token mem =>
      have negation_gap := field_gap .notKw (by decide)
      simp [Comparison.text, Tree.firstOf_leaf_of_mem mem, Tree.token?, KindSet.mem_single.1 mem,
        is_field.kind_eq, word_kind, opened_kind, values_kind, closed_kind,
        Tree.layoutAll_cons_cons, negation_gap, inside, name_text, values_text,
        canonicalText_of_kind opened_kind rfl, canonicalText_of_kind closed_kind rfl]

/-- A field with `IN` or `NOT IN` and a list of values. -/
theorem reads_member (is_form : IsForm form) (is_side : IsOptionalSide form side)
    (is_field : IsField field) (is_negation : IsOptional (.single .notKw) negation)
    (word_kind : word.kind = .inKw) (opened_kind : opened.kind = .leftParen)
    (is_values : IsValueList values) (closed_kind : closed.kind = .rightParen) :
    ∃ condition, (Tree.node form.condition (side ++ field :: (negation ++
        [.leaf word, .leaf opened, values, .leaf closed]))).readLeaf form = .ok condition ∧
      condition.text.toList = layoutAll form.condition (side ++ field :: (negation ++
        [.leaf word, .leaf opened, values, .leaf closed])) := by
  obtain ⟨name, reads_name, name_text⟩ := is_field.reads
  obtain ⟨read, reads_values, values_text⟩ := is_values.reads
  have values_kind : values.kind = .valueList := IsChain.kind_eq is_values
  have values_node : values.node? = some values := by
    obtain _ | _ := is_values <;> rfl
  have no_side : ∀ child ∈ field :: (negation ++ [.leaf word, .leaf opened, values, .leaf closed]),
      child.kind ∉ KindSet.sideNode := by
    refine List.forall_mem_cons.2 ⟨?_, List.forall_mem_append.2 ⟨fun tree mem => ?_, ?_⟩⟩
    · rw [is_field.kind_eq]
      decide
    · rw [KindSet.mem_single.1 (is_negation.kind_mem mem)]
      decide
    · simp only [List.forall_mem_cons, Tree.kind_leaf, word_kind, opened_kind, values_kind,
        closed_kind]
      exact ⟨by decide, by decide, by decide, by decide, nofun⟩
  obtain ⟨side?, reads_side, side_text⟩ := is_side.reads form.condition
  replace reads_side := reads_side _ no_side
  have behind : side ++ field :: (negation ++ [.leaf word, .leaf opened, values, .leaf closed]) =
      side ++ field :: negation ++ [.leaf word, .leaf opened, values, .leaf closed] := by
    simp
  generalize tree_eq : Tree.node form.condition (side ++ field :: (negation ++
    [.leaf word, .leaf opened, values, .leaf closed])) = tree at reads_side ⊢
  have found_field : tree.part? .field = some field := by
    rw [← tree_eq]
    exact Tree.part?_of_append (is_side.kind_ne (by decide)) is_field.node?_eq is_field.kind_eq ..
  have no_operator : tree.part? .operator = none := by
    rw [← tree_eq, behind,
      Tree.part?_append (front_kind_ne is_side is_field is_negation (by decide))]
    exact Tree.part?_eq_none (by simp [word_kind, opened_kind, values_kind, closed_kind]) _
  have found_word : tree.tokenInput? (.single .inKw) = some word := by
    rw [← tree_eq, behind,
      Tree.tokenInput?_append (front_kind_ne is_side is_field is_negation (by decide)),
      Tree.tokenInput?_node, Tree.firstOf_leaf_of_mem (KindSet.mem_single.2 word_kind)]
    rfl
  have found_list : tree.part? .valueList = some values := by
    have front : ∀ tree ∈ [Tree.leaf word, .leaf opened], tree.kind ≠ .valueList := by
      simp [word_kind, opened_kind]
    rw [← tree_eq, behind,
      Tree.part?_append (front_kind_ne is_side is_field is_negation (by decide))]
    exact Tree.part?_of_append front values_node values_kind ..
  refine ⟨_, Tree.readLeaf_of_member found_field (.inl no_operator) found_word found_list
    reads_side reads_name reads_values, ?_⟩
  have not_negation : field.kind ∉ KindSet.single .notKw := by
    rw [is_field.kind_eq]
    decide
  rw [side_text, ← tree_eq, is_side.tokenInput?_append (by decide), Tree.tokenInput?_node,
    Tree.firstOf_cons_of_notMem not_negation, Condition.text, String.toList_append,
    text_member is_form is_field is_negation word_kind opened_kind values_kind closed_kind name_text
      values_text]

end

/-- A field and what is said of it has no part that is an expression. -/
theorem leaf_part?_eq_none {comparison : List Tree} (is_form : IsForm form)
    (is_side : IsOptionalSide form side) (is_field : IsField field)
    (is_comparison : IsComparison comparison) :
    (Tree.node form.condition (side ++ field :: comparison)).part? form.expression = none := by
  rw [is_side.part?_append is_form.expression_notMem]
  refine Tree.part?_eq_none (fun child mem => ?_) _
  have kind_mem : child.kind ∈ (field :: comparison).map Tree.kind := List.mem_map_of_mem mem
  rw [List.map_cons, is_field.kind_eq] at kind_mem
  obtain comparison_eq | comparison_eq | comparison_eq := is_comparison.kinds_eq <;>
    rw [comparison_eq] at kind_mem <;> obtain rfl | rfl := is_form <;>
    generalize child.kind = kind at kind_mem ⊢ <;> revert kind <;> decide

end

variable {form : Dialect}

/-- The words of an expression and its conditions are told apart by their kinds. -/
theorem IsForm.conditions_ne (is_form : IsForm form) :
    form.condition ≠ form.expression ∧
      (form.condition ∉ KindSet.everNot ∧ form.condition ∉ KindSet.andOr) ∧
      form.expression ∉ KindSet.everNot ∧ form.expression ∉ KindSet.andOr := by
  obtain rfl | rfl := is_form <;> decide

theorem everNot_words : ∀ kind ∈ KindSet.everNot, kind ∉ opening ∧ kind ∉ KindSet.andOr := by
  decide

theorem andOr_words : ∀ kind ∈ KindSet.andOr, Tree.IsFree kind ∧ kind ∉ KindSet.everNot := by
  decide

section

variable {modifier : List Tree} {condition inner rest : Tree} {connective : Token}

/-- An expression between parentheses. -/
theorem reads_nested {opened closed : Token} (is_form : IsForm form)
    (opened_kind : opened.kind = .leftParen) (is_expression : IsExpression form inner)
    (closed_kind : closed.kind = .rightParen) {nested : Expression}
    (reads : inner.readExpression form = .ok nested) (text_eq : nested.text.toList = inner.layout) :
    ∃ read, (Tree.node form.condition [.leaf opened, inner, .leaf closed]).readCondition form =
        .ok read ∧
      read.text.toList = (Tree.node form.condition [.leaf opened, inner, .leaf closed]).layout := by
  have front : ∀ tree ∈ [Tree.leaf opened], tree.kind ≠ form.expression := by
    intro tree mem
    rw [List.mem_singleton.1 mem, Tree.kind_leaf, opened_kind]
    obtain rfl | rfl := is_form <;> decide
  have found := Tree.part?_of_append front is_expression.node?_eq is_expression.kind_eq
    form.condition [.leaf closed]
  refine ⟨_, Tree.readCondition_of_nested found reads, ?_⟩
  have opened_opens : (Tree.leaf opened).kind ∈ opening := by
    rw [Tree.kind_leaf, opened_kind]
    decide
  have closed_closes : (Tree.leaf closed).kind ∈ closing := by
    rw [Tree.kind_leaf, closed_kind]
    decide
  rw [Tree.layout_node, Tree.layoutAll_tight (.inr (.inl opened_opens)),
    Tree.layoutAll_tight (.inr (.inr closed_closes)), Tree.layoutAll_single, ← text_eq,
    Tree.layout_leaf, Tree.layout_leaf, canonicalText_of_kind opened_kind rfl,
    canonicalText_of_kind closed_kind rfl]
  simp [Condition.text]

/-- Behind an optional word, the first condition of an expression plays its role and no other. -/
theorem roles_behind_modifier (is_form : IsForm form) (is_modifier : IsOptional .everNot modifier)
    (is_condition : IsCondition form condition) (behind : List Tree) :
    (Tree.node form.expression (modifier ++ condition :: behind)).part? form.condition =
        some condition ∧
      (Tree.node form.expression (modifier ++ condition :: behind)).part? form.expression =
        (Tree.node form.expression behind).part? form.expression ∧
      (Tree.node form.expression (modifier ++ condition :: behind)).tokenInput? .andOr =
        (Tree.node form.expression behind).tokenInput? .andOr := by
  obtain ⟨kinds_ne, ⟨condition_notMem, not_connective⟩, expression_notMem, -⟩ :=
    is_form.conditions_ne
  have not_expression : ∀ tree ∈ [condition], tree.kind ≠ form.expression := by
    simpa [is_condition.kind_eq] using kinds_ne
  refine ⟨?_, ?_, ?_⟩
  · rw [is_modifier.part?_append condition_notMem]
    exact Tree.part?_of_cons is_condition.node?_eq is_condition.kind_eq ..
  · rw [is_modifier.part?_append expression_notMem]
    exact Tree.part?_append not_expression form.expression behind
  · rw [Tree.tokenInput?_node, Tree.tokenInput?_node,
      is_modifier.firstOf_append fun kind mem => (everNot_words _ mem).2,
      Tree.firstOf_cons_of_notMem (by rwa [is_condition.kind_eq])]

/-- The last condition of an expression. -/
theorem reads_last (is_form : IsForm form) (is_modifier : IsOptional .everNot modifier)
    (is_condition : IsCondition form condition) {first : Condition}
    (reads : condition.readCondition form = .ok first)
    (text_eq : first.text.toList = condition.layout) :
    ∃ read, (Tree.node form.expression (modifier ++ [condition])).readExpression form = .ok read ∧
      read.text.toList = (Tree.node form.expression (modifier ++ [condition])).layout := by
  obtain ⟨-, ⟨condition_notMem, -⟩, -⟩ := is_form.conditions_ne
  obtain ⟨found, no_rest, word_eq⟩ := roles_behind_modifier is_form is_modifier is_condition []
  have no_connective : (Tree.node form.expression (modifier ++ [condition])).tokenInput? .andOr =
      none := word_eq
  refine ⟨_, Tree.readExpression_of_parts found reads (.done no_rest), ?_⟩
  have loose := (is_form.isFree (.inr (.inl rfl))).1
  rw [Tree.layout_node, is_modifier.reads loose (fun kind mem => (everNot_words _ mem).1)
    (is_condition.isFree is_form).2 (by simpa [is_condition.kind_eq] using condition_notMem),
    no_connective]
  simp [Expression.text, text_eq]

/-- A condition with `AND` or `OR` and the rest of the expression behind it. -/
theorem reads_more (is_form : IsForm form) (is_modifier : IsOptional .everNot modifier)
    (is_condition : IsCondition form condition) (mem : connective.kind ∈ KindSet.andOr)
    (is_rest : IsExpression form rest) {first : Condition} {others : Expression}
    (reads : condition.readCondition form = .ok first)
    (text_eq : first.text.toList = condition.layout)
    (reads_rest : rest.readExpression form = .ok others)
    (rest_text : others.text.toList = rest.layout) :
    ∃ read, (Tree.node form.expression (modifier ++ [condition, .leaf connective, rest])).readExpression
        form = .ok read ∧
      read.text.toList =
        (Tree.node form.expression (modifier ++ [condition, .leaf connective, rest])).layout := by
  obtain ⟨-, ⟨condition_notMem, -⟩, expression_notMem, not_andOr⟩ := is_form.conditions_ne
  obtain ⟨word_free, not_modifier⟩ : Tree.IsFree (Tree.leaf connective).kind ∧
      connective.kind ∉ KindSet.everNot := andOr_words _ mem
  obtain ⟨found, found_rest, found_word⟩ :=
    roles_behind_modifier is_form is_modifier is_condition [.leaf connective, rest]
  have not_expression : ∀ tree ∈ [Tree.leaf connective], tree.kind ≠ form.expression := by
    intro tree tree_mem kind_eq
    rw [List.mem_singleton.1 tree_mem, Tree.kind_leaf] at kind_eq
    exact not_andOr (kind_eq ▸ mem)
  have rest_eq := Tree.part?_of_append not_expression is_rest.node?_eq is_rest.kind_eq
    form.expression []
  have word_eq : (Tree.node form.expression [.leaf connective, rest]).tokenInput? .andOr =
      some connective := by
    rw [Tree.tokenInput?_node, Tree.firstOf_leaf_of_mem mem]
    rfl
  refine ⟨_, Tree.readExpression_of_parts found reads
    (.link rest _ (found_rest.trans rest_eq) reads_rest), ?_⟩
  have loose := (is_form.isFree (.inr (.inl rfl))).1
  have no_word : ∀ child ∈ [condition, .leaf connective, rest], child.kind ∉ KindSet.everNot := by
    simp only [List.forall_mem_cons, is_condition.kind_eq, is_rest.kind_eq, Tree.kind_leaf]
    exact ⟨condition_notMem, not_modifier, expression_notMem, nofun⟩
  rw [found_word.trans word_eq, Tree.layout_node,
    is_modifier.reads loose (fun kind mem => (everNot_words _ mem).1)
      (is_condition.isFree is_form).2 no_word,
    Tree.layoutAll_spaced loose (is_condition.isFree is_form).1 word_free.2,
    Tree.layoutAll_spaced loose word_free.1 (is_rest.isFree is_form).2]
  simp [Expression.text, text_eq, rest_text]

end

mutual

theorem IsCondition.reads (is_form : IsForm form) : {tree : Tree} → IsCondition form tree →
    ∃ condition, tree.readCondition form = .ok condition ∧ condition.text.toList = tree.layout
  | _, .nested opened inner closed opened_kind is_expression closed_kind => by
      obtain ⟨nested, reads, text_eq⟩ := is_expression.reads is_form
      exact reads_nested is_form opened_kind is_expression closed_kind reads text_eq
  | _, .leaf side field comparison is_side is_field is_comparison => by
      rw [Tree.readCondition_of_leaf (leaf_part?_eq_none is_form is_side is_field is_comparison)]
      cases is_comparison with
      | compare operator value is_operator is_value =>
          exact reads_compare is_form is_side is_field is_operator is_value
      | member negation word opened values closed is_negation word_kind opened_kind is_values
          closed_kind =>
          exact reads_member is_form is_side is_field is_negation word_kind opened_kind is_values
            closed_kind

theorem IsExpression.reads (is_form : IsForm form) : {tree : Tree} → IsExpression form tree →
    ∃ expression, tree.readExpression form = .ok expression ∧
      expression.text.toList = tree.layout
  | _, .last modifier condition is_modifier is_condition => by
      obtain ⟨first, reads, text_eq⟩ := is_condition.reads is_form
      exact reads_last is_form is_modifier is_condition reads text_eq
  | _, .more modifier condition connective rest is_modifier is_condition mem is_rest => by
      obtain ⟨first, reads, text_eq⟩ := is_condition.reads is_form
      obtain ⟨others, reads_rest, rest_text⟩ := is_rest.reads is_form
      exact reads_more is_form is_modifier is_condition mem is_rest reads text_eq reads_rest rest_text

end

/-! ## Sort keys -/

theorem ascDesc_words : ∀ kind ∈ KindSet.ascDesc,
    Tree.IsFree kind ∧ kind ∉ KindSet.sideNode ∧ kind ≠ .comma := by
  decide

/-- The kind of a list of sort keys is not one of the children of a sort key. -/
theorem IsForm.order_ne (is_form : IsForm form) :
    form.order ∉ KindSet.sideNode ∧ form.order ∉ KindSet.ascDesc ∧ form.order ≠ .field ∧
      form.order ≠ .comma := by
  obtain rfl | rfl := is_form <;> decide

theorem IsSortKey.reads {item : List Tree} (is_form : IsForm form) (is_key : IsSortKey form item) :
    ReadsItem form.order (fun link => do
      let side? ← link.readSideOf form
      let item ← link.requirePart .field "field"
      let field ← item.readField
      return ⟨side?, field, link.tokenInput? .ascDesc⟩) SortKey.text item := by
  obtain ⟨not_side, not_direction, not_field, not_comma⟩ := is_form.order_ne
  have loose := (is_form.isFree (.inr (.inr rfl))).1
  cases is_key with
  | key side field direction is_side is_field is_direction =>
  obtain ⟨side?, reads_side, side_text⟩ := is_side.reads form.order
  obtain ⟨name, reads_name, name_text⟩ := is_field.reads
  refine ⟨by simp, ?_, fun behind behind_kinds => ?_⟩
  · rw [List.forall_mem_append, List.forall_mem_cons, is_field.kind_eq]
    refine ⟨fun child mem => ?_, not_field.symm, fun child mem => ?_⟩
    · exact fun kind_eq => not_side (kind_eq ▸ is_side.kind_mem mem)
    · exact fun kind_eq => not_direction (kind_eq ▸ is_direction.kind_mem mem)
  have field_notMem : field.kind ∉ KindSet.ascDesc := by
    rw [is_field.kind_eq]
    decide
  have behind_notMem : ∀ child ∈ behind, child.kind ∉ KindSet.sideNode ∧
      child.kind ∉ KindSet.ascDesc := by
    intro child mem
    obtain kind_eq | kind_eq := behind_kinds child mem
    · rw [kind_eq]
      decide
    · rw [kind_eq]
      exact ⟨not_side, not_direction⟩
  have no_side : ∀ child ∈ field :: (direction ++ behind), child.kind ∉ KindSet.sideNode := by
    rw [List.forall_mem_cons, List.forall_mem_append, is_field.kind_eq]
    exact ⟨by decide, fun child mem => (ascDesc_words _ (is_direction.kind_mem mem)).2.1,
      fun child mem => (behind_notMem child mem).1⟩
  rw [List.append_assoc, List.cons_append]
  have found : (Tree.node form.order (side ++ field :: (direction ++ behind))).part? .field =
      some field := by
    rw [is_side.part?_append (by decide)]
    exact Tree.part?_of_cons is_field.node?_eq is_field.kind_eq ..
  have direction_eq : (Tree.node form.order (side ++ field :: (direction ++ behind))).tokenInput?
      .ascDesc = (firstOf .ascDesc direction).bind Tree.token? := by
    rw [Tree.tokenInput?_node, is_side.firstOf_append (by decide),
      Tree.firstOf_cons_of_notMem field_notMem, Tree.firstOf_append,
      Tree.firstOf_eq_none fun child mem => (behind_notMem child mem).2, Option.or_none]
  refine ⟨⟨side?, name, (firstOf .ascDesc direction).bind Tree.token?⟩, ?_, ?_⟩
  · rw [reads_side _ no_side, Tree.requirePart_of_some found, direction_eq]
    simp only [ok_bind, reads_name]
    rfl
  · rw [side_text, SortKey.text, String.toList_append, String.toList_append, List.append_assoc]
    congr 1
    cases is_direction with
    | absent => simp [wordBehind, name_text]
    | present token mem =>
        have token_free : Tree.IsFree (Tree.leaf token).kind := (ascDesc_words _ mem).1
        rw [Tree.firstOf_leaf_of_mem mem, Tree.layoutAll_spaced loose is_field.isFree.1 token_free.2]
        simp [wordBehind, name_text, Tree.token?]

theorem IsOrderList.reads {tree : Tree} (is_form : IsForm form) (is_list : IsOrderList form tree) :
    ∃ order, tree.readOrder form = .ok order ∧
      (commaSeparated (order.map SortKey.text)).toList = tree.layout := by
  obtain ⟨loose, free⟩ := is_form.isFree (.inr (.inr rfl))
  obtain ⟨-, -, -, not_comma⟩ := is_form.order_ne
  obtain ⟨keys, keys_eq, -, text_eq⟩ :=
    IsChain.reads is_list loose free.2 not_comma fun _ is_key => is_key.reads is_form
  exact ⟨keys, keys_eq, text_eq⟩

end Grammar
end WorkItemQuery
