import Mathlib.Data.Finset.Card
import Mathlib.Data.Finset.Dedup
import WorkItemQuery.Proofs.Field.Catalog
import WorkItemQuery.Proofs.Query.Reports
import WorkItemQuery.Proofs.Tree.Spans

/-!
# What looking up the fields finds

Every field name of a query that the catalog does not have is reported, wherever it stands, in the
order of the text.  Behind these are the reports on the fields that are selected again, each with
the first one that stands for the same field.  Only the catalog that was used last matters.
-/

namespace WorkItemQuery

/-- The names among tokens, as field names. -/
def fieldsAmong (tokens : List Token) : List FieldName :=
  (tokens.filter Token.isName).map FieldName.mk

theorem eq_fieldsAmong {fields : List FieldName} {tokens : List Token}
    (identifiers_eq : fields.map (·.identifier) = tokens.filter Token.isName) :
    fields = fieldsAmong tokens := by
  rw [fieldsAmong, ← identifiers_eq, List.map_map]
  exact (List.map_id fields).symm

namespace FieldCatalog

variable (catalog : FieldCatalog)

/-! ## Unknown fields -/

/-- What is reported on a field name that the catalog does not have. -/
def unknownReport (field : FieldName) : Diagnostic where
  problem := .unknownField
  span := field.identifier.span
  message := "`" ++ field.name ++ "` is not a known field"
  related := []
  hints := []

theorem unknownReport?_eq (field : FieldName) :
    catalog.unknownReport? field =
      if (catalog.get? field.name).isNone = true then some (unknownReport field) else none := by
  rw [unknownReport?]
  cases catalog.get? field.name <;> rfl

/-- Every name that the catalog does not have is reported once, in order. -/
theorem unknownReports_eq (fields : List FieldName) :
    fields.filterMap catalog.unknownReport? =
      (fields.filter fun field => (catalog.get? field.name).isNone).map unknownReport := by
  rw [← List.filterMap_eq_map, List.filterMap_filter]
  exact List.filterMap_congr fun field _ => catalog.unknownReport?_eq field

/-! ## Fields that are selected again -/

/-- The name that the field of a name is shown by, if the catalog has it. -/
def shownName? (field : FieldName) : Option String := (catalog.get? field.name).map (·.name)

/-- The names that some fields are shown by, as far as the catalog has them. -/
def shownNames (fields : List FieldName) : List String := fields.filterMap catalog.shownName?

/-- What is reported on a field that is selected again. -/
def repeatReport (first field : FieldName) : Diagnostic where
  problem := .duplicateField
  span := field.identifier.span
  message := "field `" ++ field.name ++ "` is selected more than once"
  related := [⟨first.identifier.span, "first selected here"⟩]
  hints := []

/-- The field at a place is selected again: the first place of a field that the catalog shows by
the same name comes before it. -/
structure IsRepeat (fields : List FieldName) (place first : Nat) : Prop where
  /-- It is selected before. -/
  lt : first < place
  /-- Both are known, and shown by the same name. -/
  same : ∃ shown, fields[place]?.bind catalog.shownName? = some shown ∧
    fields[first]?.bind catalog.shownName? = some shown
  /-- No place before is one of such a field. -/
  least : ∀ earlier < first,
    fields[earlier]?.bind catalog.shownName? ≠ fields[first]?.bind catalog.shownName?

variable {catalog}

/-- A field that is selected again is so with one first place only. -/
theorem IsRepeat.unique {fields : List FieldName} {place first other : Nat}
    (is_repeat : catalog.IsRepeat fields place first)
    (is_repeat_other : catalog.IsRepeat fields place other) : other = first := by
  obtain ⟨shown, place_eq, first_eq⟩ := is_repeat.same
  obtain ⟨shown', place_eq', other_eq⟩ := is_repeat_other.same
  obtain rfl := Option.some.inj (place_eq.symm.trans place_eq')
  obtain less | same | greater := Nat.lt_trichotomy other first
  · exact absurd (other_eq.trans first_eq.symm) (is_repeat.least other less)
  · exact same
  · exact absurd (first_eq.trans other_eq.symm) (is_repeat_other.least first greater)

variable (catalog) in
/-- What is reported on the field behind earlier ones, and with which place of them. -/
theorem duplicateReport?_cases (earlier : List FieldName) (field : FieldName)
    (rest : List FieldName) :
    (catalog.duplicateReport? earlier field = none ∧
      ∀ first, ¬ catalog.IsRepeat (earlier ++ field :: rest) earlier.length first) ∨
    ∃ place first, catalog.duplicateReport? earlier field = some (repeatReport first field) ∧
      (earlier ++ field :: rest)[place]? = some first ∧
      catalog.IsRepeat (earlier ++ field :: rest) earlier.length place := by
  have field_eq : (earlier ++ field :: rest)[earlier.length]? = some field := by simp
  cases found_eq : earlier.find? fun first => catalog.sameField first.name field.name with
  | none =>
      refine .inl ⟨by rw [duplicateReport?, found_eq]; rfl, fun place is_repeat => ?_⟩
      obtain ⟨shown, shown_eq, first_shown⟩ := is_repeat.same
      rw [List.getElem?_append_left is_repeat.lt, List.getElem?_eq_getElem is_repeat.lt] at first_shown
      rw [field_eq] at shown_eq
      refine List.find?_eq_none.1 found_eq _ (List.getElem_mem is_repeat.lt) ?_
      exact catalog.sameField_iff.2 ⟨shown, first_shown, shown_eq⟩
  | some first =>
      obtain ⟨same, front, behind, earlier_eq, others⟩ := List.find?_eq_some_iff_append.1 found_eq
      obtain ⟨shown, first_shown, field_shown⟩ := catalog.sameField_iff.1 same
      have first_eq : (earlier ++ field :: rest)[front.length]? = some first := by
        simp [earlier_eq]
      have report_eq : catalog.duplicateReport? earlier field = some (repeatReport first field) := by
        rw [duplicateReport?, found_eq]
        rfl
      have both_shown : ∃ shown,
          (earlier ++ field :: rest)[earlier.length]?.bind catalog.shownName? = some shown ∧
            (earlier ++ field :: rest)[front.length]?.bind catalog.shownName? = some shown := by
        rw [field_eq, first_eq, Option.bind_some, Option.bind_some]
        exact ⟨shown, field_shown, first_shown⟩
      refine .inr ⟨front.length, first, report_eq, first_eq, by simp [earlier_eq], both_shown,
        fun place lt place_eq => ?_⟩
      have at_front : (earlier ++ field :: rest)[place]? = some front[place] := by
        simp [earlier_eq, List.getElem?_append_left, lt]
      rw [at_front, first_eq] at place_eq
      have not_same := others front[place] (List.getElem_mem lt)
      rw [catalog.sameField_iff.2 ⟨shown, place_eq.trans first_shown, field_shown⟩] at not_same
      cases not_same

/-- The report on a field that is selected again, and on its first place. -/
def IsReportedAt (fields : List FieldName) (places : Nat × Nat) (report : Diagnostic) : Prop :=
  ∃ field first, fields[places.1]? = some field ∧ fields[places.2]? = some first ∧
    report = repeatReport first field

variable (catalog) in
/-- Behind earlier fields, those that are selected again are reported one by one. -/
theorem exists_repeats (earlier fields : List FieldName) :
    ∃ repeats : List (Nat × Nat), repeats.Pairwise (fun left right => left.1 < right.1) ∧
      (∀ place first, (place, first) ∈ repeats ↔
        earlier.length ≤ place ∧ catalog.IsRepeat (earlier ++ fields) place first) ∧
      List.Forall₂ (IsReportedAt (earlier ++ fields)) repeats
        (catalog.duplicateReports earlier fields) := by
  induction fields generalizing earlier with
  | nil =>
      refine ⟨[], .nil, fun place first => ?_, .nil⟩
      rw [List.append_nil]
      refine ⟨nofun, fun ⟨le, is_repeat⟩ => ?_⟩
      obtain ⟨shown, place_eq, -⟩ := is_repeat.same
      rw [List.getElem?_eq_none le] at place_eq
      cases place_eq
  | cons field rest ih =>
      obtain ⟨repeats, ordered, mem_iff, reports⟩ := ih (earlier ++ [field])
      rw [List.append_assoc, List.singleton_append] at mem_iff reports
      rw [List.length_append, List.length_singleton] at mem_iff
      rw [duplicateReports]
      obtain ⟨none_eq, no_repeat⟩ | ⟨place, first, report_eq, first_eq, is_repeat⟩ :=
        catalog.duplicateReport?_cases earlier field rest
      · refine ⟨repeats, ordered, fun place first => ?_, by rwa [none_eq]⟩
        rw [mem_iff]
        refine and_congr_left fun is_repeat => ⟨Nat.le_of_succ_le, fun le => ?_⟩
        refine Nat.lt_of_le_of_ne le ?_
        rintro rfl
        exact no_repeat first is_repeat
      · refine ⟨(earlier.length, place) :: repeats, List.pairwise_cons.2 ⟨?_, ordered⟩, ?_, ?_⟩
        · rintro ⟨other, otherFirst⟩ mem
          exact ((mem_iff other otherFirst).1 mem).1
        · intro other otherFirst
          rw [List.mem_cons, mem_iff, Prod.mk.injEq]
          constructor
          · rintro (⟨rfl, rfl⟩ | ⟨le, is_repeat_other⟩)
            · exact ⟨Nat.le_refl _, is_repeat⟩
            · exact ⟨Nat.le_of_succ_le le, is_repeat_other⟩
          · rintro ⟨le, is_repeat_other⟩
            obtain rfl | lt := Nat.eq_or_lt_of_le le
            · exact .inl ⟨rfl, is_repeat.unique is_repeat_other⟩
            · exact .inr ⟨lt, is_repeat_other⟩
        · rw [report_eq]
          exact .cons ⟨field, first, by simp, first_eq, rfl⟩ reports

/-- What is reported on fields that are selected again is about two of them. -/
theorem exists_of_mem_duplicateReports {fields : List FieldName} {report : Diagnostic}
    (mem : report ∈ catalog.duplicateReports [] fields) :
    ∃ first ∈ fields, ∃ field ∈ fields, report = repeatReport first field := by
  obtain ⟨repeats, -, -, reports⟩ := catalog.exists_repeats [] fields
  generalize catalog.duplicateReports [] fields = duplicates at mem reports
  induction reports with
  | nil => cases mem
  | cons reported _ ih =>
      obtain _ | ⟨_, mem⟩ := mem
      · obtain ⟨field, first, field_eq, first_eq, report_eq⟩ := reported
        exact ⟨first, List.mem_of_getElem? first_eq, field, List.mem_of_getElem? field_eq, report_eq⟩
      · exact ih mem

/-- A field that is selected again is only worth a warning. -/
theorem severity_of_mem_duplicateReports {fields : List FieldName} {report : Diagnostic}
    (mem : report ∈ catalog.duplicateReports [] fields) : report.severity = .warning := by
  obtain ⟨first, -, field, -, rfl⟩ := exists_of_mem_duplicateReports mem
  rfl

theorem severity_of_mem_unknownReports {fields : List FieldName} {report : Diagnostic}
    (mem : report ∈ fields.filterMap catalog.unknownReport?) : report.severity = .error := by
  rw [unknownReports_eq] at mem
  obtain ⟨field, -, rfl⟩ := List.mem_map.1 mem
  rfl

variable (catalog) in
/-- No field is reported as selected again exactly if no two of them are the same. -/
theorem duplicateReports_eq_nil_iff (earlier fields : List FieldName) :
    catalog.duplicateReports earlier fields = [] ↔
      (∀ field ∈ fields, ∀ first ∈ earlier, catalog.sameField first.name field.name = false) ∧
      fields.Pairwise fun first field => catalog.sameField first.name field.name = false := by
  induction fields generalizing earlier with
  | nil => simp [duplicateReports]
  | cons field rest ih =>
      rw [duplicateReports, List.append_eq_nil_iff, ih, Option.toList_eq_nil_iff, duplicateReport?,
        Option.map_eq_none_iff, List.find?_eq_none, List.pairwise_cons, List.forall_mem_cons]
      simp only [List.mem_append, List.mem_singleton, Bool.not_eq_true]
      constructor
      · rintro ⟨field_new, rest_new, apart⟩
        exact ⟨⟨field_new, fun other mem first first_mem => rest_new other mem first (.inl first_mem)⟩,
          fun other mem => rest_new other mem field (.inr rfl), apart⟩
      · rintro ⟨⟨field_new, rest_new⟩, field_apart, apart⟩
        refine ⟨field_new, fun other mem first first_mem => ?_, apart⟩
        obtain first_mem | rfl := first_mem
        · exact rest_new other mem first first_mem
        · exact field_apart other mem

variable (catalog) in
/-- A field is reported exactly if an earlier one is shown by the same name. -/
theorem isSome_duplicateReport?_iff (earlier : List FieldName) (field : FieldName) :
    (catalog.duplicateReport? earlier field).isSome = true ↔
      ∃ shown ∈ catalog.shownNames earlier, catalog.shownName? field = some shown := by
  rw [duplicateReport?, Option.isSome_map, List.find?_isSome]
  constructor
  · rintro ⟨first, mem, same⟩
    obtain ⟨shown, first_shown, field_shown⟩ := catalog.sameField_iff.1 same
    exact ⟨shown, List.mem_filterMap.2 ⟨first, mem, first_shown⟩, field_shown⟩
  · rintro ⟨shown, shown_mem, field_shown⟩
    obtain ⟨first, mem, first_shown⟩ := List.mem_filterMap.1 shown_mem
    exact ⟨first, mem, catalog.sameField_iff.2 ⟨shown, first_shown, field_shown⟩⟩

variable (catalog) in
/-- A field that is known is reported, or shown by a new name. -/
theorem length_duplicateReport? (earlier : List FieldName) (field : FieldName) :
    (catalog.duplicateReport? earlier field).toList.length +
        (catalog.shownNames (earlier ++ [field])).toFinset.card =
      (catalog.shownNames [field]).length + (catalog.shownNames earlier).toFinset.card := by
  have reported_iff := catalog.isSome_duplicateReport?_iff earlier field
  rw [shownNames, List.filterMap_append, List.toFinset_append]
  change _ + ((catalog.shownNames earlier).toFinset ∪ (catalog.shownNames [field]).toFinset).card = _
  cases field_shown : catalog.shownName? field with
  | none =>
      have not_known : catalog.shownNames [field] = [] := List.filterMap_cons_none field_shown
      have not_reported : catalog.duplicateReport? earlier field = none := by
        simpa [field_shown] using reported_iff
      simp [not_known, not_reported]
  | some shown =>
      have known : catalog.shownNames [field] = [shown] := List.filterMap_cons_some field_shown
      by_cases mem : shown ∈ catalog.shownNames earlier
      · obtain ⟨report, report_eq⟩ := Option.isSome_iff_exists.1
          (reported_iff.2 ⟨shown, mem, field_shown⟩)
        simp [known, report_eq, Finset.union_singleton, Finset.insert_eq_of_mem, mem]
      · have not_reported : catalog.duplicateReport? earlier field = none := by
          simpa [field_shown, mem] using reported_iff
        rw [known, not_reported]
        simp [Finset.union_singleton, Finset.card_insert_of_notMem, mem, Nat.add_comm]

variable (catalog) in
/-- The fields that are known are those that are reported, and one for each name. -/
theorem length_duplicateReports (earlier fields : List FieldName) :
    (catalog.duplicateReports earlier fields).length +
        (catalog.shownNames (earlier ++ fields)).toFinset.card =
      (catalog.shownNames fields).length + (catalog.shownNames earlier).toFinset.card := by
  induction fields generalizing earlier with
  | nil => simp [duplicateReports, shownNames]
  | cons field rest ih =>
      have rest_eq := ih (earlier ++ [field])
      have field_eq := catalog.length_duplicateReport? earlier field
      have known_eq : catalog.shownNames (field :: rest) =
          catalog.shownNames [field] ++ catalog.shownNames rest :=
        List.filterMap_append (l := [field])
      rw [List.append_assoc, List.singleton_append] at rest_eq
      rw [duplicateReports, List.length_append, known_eq, List.length_append]
      omega

end FieldCatalog

namespace Query

/-- The reports of a query whose fields have been looked up in a catalog. -/
structure IsChecked (query : Query) (root : Tree) (catalog : FieldCatalog) (checked : Query) :
    Prop where
  /-- Nothing else changes. -/
  kept : checked.source = query.source ∧ checked.tokens = query.tokens ∧
    checked.root? = query.root? ∧ checked.parseDiagnostics = query.parseDiagnostics
  /-- The field nodes of the tree are those of its names, in the order of the text. -/
  nodes_eq : (root.preOrder.filter fun node => node.kind == .field) =
    (fieldsAmong root.tokens).map fun field => Grammar.fieldNode field.identifier
  /-- The names stand in the order of the text. -/
  in_order : InTextOrder ((fieldsAmong root.tokens).map (·.identifier))
  /-- The selected fields are the names before the word `FROM`. -/
  selected_eq : root.selectedFields = fieldsAmong (root.tokens.takeWhile (·.kind != .fromKw))
  /-- Each name that the catalog does not have is reported, and behind these each selected field
  that is selected before. -/
  reports : ∃ duplicates repeats,
    checked.fieldDiagnostics =
      ((fieldsAmong root.tokens).filter fun field => (catalog.get? field.name).isNone).map
        FieldCatalog.unknownReport ++ duplicates ∧
    repeats.Pairwise (fun left right => left.1 < right.1) ∧
    (∀ place first, (place, first) ∈ repeats ↔ catalog.IsRepeat root.selectedFields place first) ∧
    List.Forall₂ (FieldCatalog.IsReportedAt root.selectedFields) repeats duplicates ∧
    duplicates.length + (catalog.shownNames root.selectedFields).toFinset.card =
      (catalog.shownNames root.selectedFields).length
  /-- The query is valid if it was so before, and all its names are known. -/
  isValid_iff : checked.isValid = true ↔ query.isValid = true ∧
    ∀ field ∈ fieldsAmong root.tokens, (catalog.get? field.name).isSome = true

variable {limit : Option Nat} {source : String} {query : Query} {root : Tree}

theorem fieldDiagnostics_of_parse (parse_eq : parse limit source = .ok query) :
    query.fieldDiagnostics = [] := by
  obtain ⟨reading, -, rfl⟩ := exists_reading parse_eq
  rfl

/-- The tree of a query that has been read is derived over tokens in the order of the text. -/
theorem isQuery_of_parse (parse_eq : parse limit source = .ok query)
    (root_eq : query.root? = some root) : Grammar.IsQuery root ∧ InTextOrder root.tokens := by
  obtain ⟨reading, reading_eq, rfl⟩ := exists_reading parse_eq
  obtain ⟨init, final, tokens_eq, is_list, -⟩ := exists_tokenize_eq source
  rw [tokens_eq] at reading_eq
  obtain ⟨behind, init_eq, query_eq, -⟩ :=
    Grammar.exists_query_of_parse is_list.final_kind reading_eq root_eq
  have in_order : InTextOrder init := is_list.sorted
  exact ⟨(Grammar.derivation_of_query_ok is_list.final_kind query_eq).1,
    in_order.of_infix (init_eq ▸ (List.prefix_append ..).isInfix)⟩

/-- Of the reports on the fields only those on unknown ones are errors. -/
theorem hasErrors_check (catalog : FieldCatalog) (is_query : Grammar.IsQuery root) :
    Diagnostic.hasErrors (catalog.check root) = false ↔
      ∀ field ∈ fieldsAmong root.tokens, (catalog.get? field.name).isSome = true := by
  have warnings : ∀ report ∈ catalog.duplicateReports [] root.selectedFields,
      ¬ report.isError = true := by
    intro report mem
    rw [Diagnostic.isError, FieldCatalog.severity_of_mem_duplicateReports mem]
    nofun
  have errors : ∀ field, (FieldCatalog.unknownReport field).isError = true := fun _ => rfl
  rw [FieldCatalog.check, catalog.unknownReports_eq, eq_fieldsAmong is_query.fieldNames_eq,
    Diagnostic.hasErrors, List.any_eq_false, List.forall_mem_append, List.forall_mem_map]
  simp only [errors, List.mem_filter, not_true_eq_false, imp_false, not_and, Option.isNone_iff_eq_none,
    ← ne_eq, ← Option.isSome_iff_ne_none]
  exact and_iff_left warnings

/-- Of the reports on the fields those on fields that are selected again are warnings. -/
theorem hasWarnings_check (catalog : FieldCatalog) (is_query : Grammar.IsQuery root) :
    Diagnostic.hasWarnings (catalog.check root) = false ↔
      (fieldsAmong (root.tokens.takeWhile (·.kind != .fromKw))).Pairwise fun first field =>
        catalog.sameField first.name field.name = false := by
  have errors : ∀ report ∈ root.fieldNames.filterMap catalog.unknownReport?,
      ¬ report.isWarning = true := by
    intro report mem
    rw [Diagnostic.isWarning, FieldCatalog.severity_of_mem_unknownReports mem]
    decide
  have nothing_earlier := catalog.duplicateReports_eq_nil_iff [] root.selectedFields
  rw [FieldCatalog.check, Diagnostic.hasWarnings, List.any_eq_false, List.forall_mem_append,
    ← eq_fieldsAmong is_query.selectedFields_eq]
  constructor
  · rintro ⟨-, no_warnings⟩
    refine (nothing_earlier.1 (List.eq_nil_iff_forall_not_mem.2 fun report mem => ?_)).2
    refine no_warnings report mem ?_
    rw [Diagnostic.isWarning, FieldCatalog.severity_of_mem_duplicateReports mem]
    rfl
  · intro apart
    rw [nothing_earlier.2 ⟨fun _ _ => List.forall_mem_nil _, apart⟩]
    exact ⟨errors, List.forall_mem_nil _⟩

/-- Whatever catalogs the fields of a query have been looked up in before, the reports are those of
the last one. -/
theorem validate_exact (parse_eq : parse limit source = .ok query)
    (root_eq : query.root? = some root) (catalogs : List FieldCatalog) (catalog : FieldCatalog) :
    query.IsChecked root catalog ((catalogs ++ [catalog]).foldl validate query) := by
  obtain ⟨is_query, in_order⟩ := isQuery_of_parse parse_eq root_eq
  have nothing_found := fieldDiagnostics_of_parse parse_eq
  have checked_eq := foldl_validate query nothing_found (catalogs ++ [catalog])
  rw [List.getLast?_concat, Option.bind_some, root_eq, Option.map_some, Option.getD_some]
    at checked_eq
  have names_eq : (fieldsAmong root.tokens).map (·.identifier) = root.tokens.filter Token.isName := by
    rw [fieldsAmong, List.map_map]
    exact List.map_id _
  obtain ⟨repeats, ordered, mem_iff, reports⟩ := catalog.exists_repeats [] root.selectedFields
  have known_eq := catalog.length_duplicateReports [] root.selectedFields
  rw [checked_eq]
  refine ⟨⟨rfl, rfl, root_eq.symm, rfl⟩, ?_, ?_, eq_fieldsAmong is_query.selectedFields_eq,
    ⟨_, repeats, ?_, ordered, ?_, reports, ?_⟩, ?_⟩
  · rw [(Grammar.IsPart.query is_query).fieldNodes_eq, ← names_eq, List.map_map]
    rfl
  · rw [names_eq]
    exact in_order.sublist List.filter_sublist
  · rw [FieldCatalog.check, catalog.unknownReports_eq, eq_fieldsAmong is_query.fieldNames_eq]
  · simpa using mem_iff
  · simpa [FieldCatalog.shownNames] using known_eq
  · simp [isValid, root_eq, nothing_found, Diagnostic.hasErrors, ← hasErrors_check catalog is_query]

/-- Unknown fields in two clauses, and a field that is selected by both of its names. -/
theorem validate_exact_membership :
    ∃ catalog query root checked,
      catalog = FieldCatalog.ofList [{ name := "ID", referenceName := "System.Id" }] ∧
      parse (some 0) "select id, x, System.ID from workitems where y in ([id])" = .ok query ∧
      query.root? = some root ∧
      checked = ([FieldCatalog.ofList []] ++ [catalog]).foldl validate query ∧
      (checked.fieldDiagnostics.map fun report =>
        (report.problem, report.span.start, report.related.map (·.span.start))) =
        [(.unknownField, 11, []), (.unknownField, 45, []), (.duplicateField, 14, [7])] ∧
      query.IsChecked root catalog checked := by
  have is_read : ((parse (some 0)
      "select id, x, System.ID from workitems where y in ([id])").toOption.any fun query =>
        query.root?.isSome && (([FieldCatalog.ofList []] ++
          [FieldCatalog.ofList [{ name := "ID", referenceName := "System.Id" }]]).foldl
            validate query).fieldDiagnostics.map (fun report =>
              (report.problem, report.span.start, report.related.map (·.span.start))) ==
          [(.unknownField, 11, []), (.unknownField, 45, []), (.duplicateField, 14, [7])]) = true := by
    decide +kernel
  cases parse_eq : parse (some 0) "select id, x, System.ID from workitems where y in ([id])" with
  | error fault =>
      rw [parse_eq] at is_read
      cases is_read
  | ok query =>
      rw [parse_eq] at is_read
      obtain ⟨has_root, reports_eq⟩ := Bool.and_eq_true_iff.1 is_read
      obtain ⟨root, root_eq⟩ := Option.isSome_iff_exists.1 has_root
      exact ⟨_, query, root, _, rfl, rfl, root_eq, rfl, beq_iff_eq.1 reports_eq,
        validate_exact parse_eq root_eq _ _⟩

end Query
end WorkItemQuery
