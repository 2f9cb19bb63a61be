import WorkItemQuery.CommandLine.Run
import WorkItemQuery.Proofs.Query.Valid
import WorkItemQuery.Proofs.Query.Visible

/-!
# What the commands find

A check passes exactly if the text spells out a query, the field list, if one is given, has all of
its fields, and, where warnings count, no field is selected twice.  The canonical text is written
exactly if the text spells out a query.  Where a text is read and does not pass, its reports are
written, and there are some.
-/

namespace WorkItemQuery
namespace CommandLine

namespace Environment

/-! ## What is read -/

/-- The text of a query is given as it is, on the standard input, or in a file. -/
inductive Gives (env : Environment) : Option String → Option String → String → Prop where
  | text (path? : Option String) (source : String) : Gives env path? (some source) source
  | stdin (source : String) : env.stdin = .ok source → Gives env (some "-") none source
  | file (path source : String) : path ≠ "-" → env.file path = .ok source →
      Gives env (some path) none source

/-- A query has had its fields looked up in the field list of a path, if there is one. -/
inductive LooksUp (env : Environment) (query : Query) : Option String → Query → Prop where
  | nothing : LooksUp env query none query
  | list (path content : String) (records : List FieldRecord) : env.file path = .ok content →
      FieldRecord.parseList content = .ok records →
      LooksUp env query (some path) (query.validate (.ofList records))

/-- The field list of a path has all field names of a tree.  Where warnings count, no two of those
that are selected are of one field. -/
def HasFields (env : Environment) (strict : Bool) (root : Tree) (path : String) : Prop :=
  ∃ content records, env.file path = .ok content ∧ FieldRecord.parseList content = .ok records ∧
    (∀ field ∈ fieldsAmong root.tokens,
      ((FieldCatalog.ofList records).get? field.name).isSome = true) ∧
    (strict = true →
      (fieldsAmong (root.tokens.takeWhile (·.kind != .fromKw))).Pairwise fun first field =>
        (FieldCatalog.ofList records).sameField first.name field.name = false)

variable {env : Environment} {path? text? : Option String} {source : String}

theorem loadQuery_of_gives (gives : env.Gives path? text? source)
    (not_blank : Text.allBlank source.toList = false) :
    env.loadQuery path? text? = .ok source := by
  have checked : (if Text.allBlank source.toList = true then Except.error LoadError.emptyQuery
      else .ok source) = .ok source := if_neg (by rw [not_blank]; nofun)
  cases gives with
  | text path? source => exact checked
  | stdin source stdin_eq =>
      rw [loadQuery, readStdin, stdin_eq]
      exact checked
  | file path source not_dash file_eq =>
      rw [loadQuery, readFile, file_eq]
      · exact checked
      · exact not_dash

theorem loadFields_eq_ok_iff {path : String} {records : List FieldRecord} :
    env.loadFields path = .ok records ↔
      ∃ content, env.file path = .ok content ∧ FieldRecord.parseList content = .ok records := by
  rw [loadFields, readFile]
  cases env.file path with
  | error error => simp [bind, Except.bind]
  | ok content =>
      cases parse_eq : FieldRecord.parseList content <;> simp [bind, Except.bind, parse_eq]

/-- Looking up the fields succeeds exactly if the field list is read. -/
theorem checkFields_eq_ok_iff {fields? : Option String} {query checked : Query} :
    checkFields env fields? query = .ok checked ↔ env.LooksUp query fields? checked := by
  cases fields? with
  | none =>
      rw [checkFields, Except.ok.injEq]
      constructor
      · rintro rfl
        exact .nothing
      · rintro ⟨⟩
        rfl
  | some path =>
      rw [checkFields]
      constructor
      · intro checked_eq
        cases fields_eq : env.loadFields path with
        | error error =>
            rw [fields_eq] at checked_eq
            cases checked_eq
        | ok records =>
            rw [fields_eq] at checked_eq
            cases checked_eq
            obtain ⟨content, file_eq, records_eq⟩ := loadFields_eq_ok_iff.1 fields_eq
            exact .list path content records file_eq records_eq
      · rintro (_ | ⟨_, content, records, file_eq, records_eq⟩)
        rw [loadFields_eq_ok_iff.2 ⟨content, file_eq, records_eq⟩]

theorem LooksUp.exists_catalogs {fields? : Option String} {query checked : Query}
    (looks_up : env.LooksUp query fields? checked) :
    ∃ catalogs : List FieldCatalog, checked = catalogs.foldl Query.validate query := by
  cases looks_up with
  | nothing => exact ⟨[], rfl⟩
  | list path content records => exact ⟨[.ofList records], rfl⟩

/-- A valid query passes a check exactly if the field list has its fields. -/
theorem exists_passes_iff {fields? : Option String} {root : Tree} (is_query : Grammar.IsQuery root)
    (source : String) (strict : Bool) :
    (∃ checked, env.LooksUp (.clean source root) fields? checked ∧ checked.Passes strict) ↔
      ∀ path ∈ fields?, env.HasFields strict root path := by
  constructor
  · rintro ⟨_, _ | ⟨path, content, records, file_eq, records_eq⟩, passes⟩
    · exact nofun
    · rintro _ ⟨⟩
      exact ⟨content, records, file_eq, records_eq,
        (Query.passes_validate_iff is_query strict _).1 passes⟩
  · intro has_fields
    cases fields? with
    | none => exact ⟨_, .nothing, Query.passes_clean source root strict⟩
    | some path =>
        obtain ⟨content, records, file_eq, records_eq, passes⟩ := has_fields path rfl
        exact ⟨_, .list path content records file_eq records_eq,
          (Query.passes_validate_iff is_query strict _).2 passes⟩

end Environment

/-! ## What is written -/

/-- The outcome tells the reports on a query, of which there are some. -/
structure Reported (env : Environment) (color : Color) (query : Query) (outcome : Outcome) : Prop
    where
  /-- Something is wrong. -/
  exit_eq : outcome.exit = 1
  /-- There is no other answer. -/
  stdout_eq : outcome.stdout = ""
  /-- Something is reported. -/
  not_nil : query.diagnostics ≠ []
  /-- All reports are drawn. -/
  drawn : ∃ drawings, outcome.stderr = "\n".intercalate drawings ∧
    List.Forall₂ (fun report drawing =>
      report.draw? query.source none (color.isOn env) = some drawing) query.diagnostics drawings
  /-- What is written is not empty. -/
  not_empty : outcome.stderr ≠ ""

variable {env : Environment} {source : String}

theorem reported_of_not_nil {limit : Option Nat} {query : Query}
    (parse_eq : Query.parse limit source = .ok query) (catalogs : List FieldCatalog) (color : Color)
    (not_nil : (catalogs.foldl Query.validate query).diagnostics ≠ []) :
    Reported env color (catalogs.foldl Query.validate query)
      ⟨1, "", drawReports env color (catalogs.foldl Query.validate query)⟩ := by
  have source_eq : (catalogs.foldl Query.validate query).source = source := by
    rw [Query.foldl_validate query (Query.fieldDiagnostics_of_parse parse_eq) catalogs]
    obtain ⟨reading, -, rfl⟩ := Query.exists_reading parse_eq
    rfl
  have visible : ∀ report ∈ (catalogs.foldl Query.validate query).diagnostics,
      report.IsVisible source := fun report mem =>
    Query.isVisible_of_mem_reports parse_eq catalogs (Diagnostic.mem_filtered.1 mem).1
  rw [← source_eq] at visible
  obtain ⟨drawings, drawings_eq, all_drawn, not_empty⟩ :=
    Diagnostic.exists_drawings visible none (color.isOn env)
  have written_eq : drawReports env color (catalogs.foldl Query.validate query) =
      "\n".intercalate drawings := by
    rw [drawReports, drawings_eq]
    rfl
  rw [written_eq]
  exact ⟨rfl, rfl, not_nil, ⟨drawings, rfl, all_drawn⟩, not_empty not_nil⟩

/-! ## Verdicts -/

/-- What a check finds. -/
structure IsCheck (env : Environment) (source : String) (limit : Nat) (fields? : Option String)
    (strict : Bool) (color : Color) (outcome : Outcome) : Prop where
  /-- It passes exactly if the text spells out a query with fields of the field list. -/
  passes_iff : outcome.exit = 0 ↔ ∃ root, Query.Spells limit source root ∧
    ∀ path ∈ fields?, env.HasFields strict root path
  /-- Where the text and the field list are read and it does not pass, the reports are written. -/
  reported : ∀ query checked, Query.parse (some limit) source = .ok query →
    env.LooksUp query fields? checked → outcome.exit ≠ 0 → Reported env color checked outcome

/-- What writing a query in canonical form finds. -/
structure IsFormatting (env : Environment) (source : String) (limit : Nat) (color : Color)
    (outcome : Outcome) : Prop where
  /-- It succeeds exactly if the text spells out a query. -/
  succeeds_iff : outcome.exit = 0 ↔ ∃ root, Query.Spells limit source root
  /-- Then the canonical text is written. -/
  written : ∀ root, Query.Spells limit source root → ∃ text, root.format? = some (.ok text) ∧
    text.toList = root.dateFirst.layout ∧ outcome = ⟨0, text ++ "\n", ""⟩
  /-- Where the text is read and it does not succeed, the reports are written. -/
  reported : ∀ query, Query.parse (some limit) source = .ok query → outcome.exit ≠ 0 →
    Reported env color query outcome

section

variable {path? text? : Option String} {limit? : Option Nat} {color : Color}

theorem readQuery_eq_ok_iff {query : Query} : readQuery limit? source = .ok query ↔
    Query.parse (some (limit?.getD Grammar.defaultLimit)) source = .ok query := by
  rw [readQuery]
  cases Query.parse (some (limit?.getD Grammar.defaultLimit)) source <;> simp

/-- A check fails without a query, or tells what it finds on one. -/
theorem run_check_cases (load_eq : env.loadQuery path? text? = .ok source)
    (fields? : Option String) (strict : Bool) :
    (∃ message, run env ⟨path?, text?, .check fields? strict limit? color⟩ = .failed message ∧
      ∀ query checked, readQuery limit? source = .ok query →
        ¬ env.LooksUp query fields? checked) ∨
    ∃ query checked, readQuery limit? source = .ok query ∧ env.LooksUp query fields? checked ∧
      run env ⟨path?, text?, .check fields? strict limit? color⟩ =
        runCheck env strict color checked := by
  rw [run, load_eq]
  simp only [Task.run]
  cases readQuery limit? source with
  | error message => exact .inl ⟨message, rfl, nofun⟩
  | ok query =>
      rw [ok_bind]
      cases checked_eq : checkFields env fields? query with
      | error message =>
          refine .inl ⟨message, rfl, ?_⟩
          rintro _ checked ⟨⟩ looks_up
          rw [Environment.checkFields_eq_ok_iff.2 looks_up] at checked_eq
          cases checked_eq
      | ok checked =>
          exact .inr ⟨query, checked, rfl, Environment.checkFields_eq_ok_iff.1 checked_eq, rfl⟩

/-- Writing a query in canonical form fails without a query, or tells what it finds on one. -/
theorem run_fmt_cases (load_eq : env.loadQuery path? text? = .ok source) (limit? : Option Nat)
    (color : Color) :
    (∃ message, run env ⟨path?, text?, .fmt limit? color⟩ = .failed message ∧
      ∀ query, readQuery limit? source ≠ .ok query) ∨
    ∃ query, readQuery limit? source = .ok query ∧
      run env ⟨path?, text?, .fmt limit? color⟩ = runFmt env color query := by
  rw [run, load_eq]
  simp only [Task.run]
  cases readQuery limit? source with
  | error message => exact .inl ⟨message, rfl, nofun⟩
  | ok query => exact .inr ⟨query, rfl, rfl⟩

theorem Environment.LooksUp.unique {fields? : Option String} {query checked checked' : Query}
    (looks_up : env.LooksUp query fields? checked) (looks_up' : env.LooksUp query fields? checked') :
    checked' = checked :=
  Except.ok.inj ((checkFields_eq_ok_iff.2 looks_up').symm.trans (checkFields_eq_ok_iff.2 looks_up))

/-- A query that is valid after a look-up was so before. -/
theorem Environment.LooksUp.isValid {limit : Option Nat} {fields? : Option String}
    {query checked : Query} (looks_up : env.LooksUp query fields? checked)
    (parse_eq : Query.parse limit source = .ok query) (is_valid : checked.isValid = true) :
    query.isValid = true := by
  cases looks_up with
  | nothing => exact is_valid
  | list path content records =>
      rw [Query.isValid, Bool.and_eq_true] at is_valid ⊢
      rw [Query.fieldDiagnostics_of_parse parse_eq]
      exact ⟨is_valid.1, rfl⟩

/-- A check says nothing on what passes, and tells the reports on everything else. -/
theorem runCheck_cases (env : Environment) (strict : Bool) (color : Color) (query : Query) :
    (query.Passes strict ∧ runCheck env strict color query = ⟨0, "", ""⟩) ∨
    (¬ query.Passes strict ∧
      runCheck env strict color query = ⟨1, "", drawReports env color query⟩) := by
  have passes_iff : query.Passes strict ↔
      (query.isValid && !(strict && Diagnostic.hasWarnings query.diagnostics)) = true := by
    cases strict <;> simp [Query.Passes]
  rw [runCheck, passes_iff]
  split
  · rename_i passes
    exact .inl ⟨passes, rfl⟩
  · rename_i not_passes
    exact .inr ⟨not_passes, rfl⟩

theorem isCheck_run (load_eq : env.loadQuery path? text? = .ok source) (fields? : Option String)
    (strict : Bool) :
    IsCheck env source (limit?.getD Grammar.defaultLimit) fields? strict color
      (run env ⟨path?, text?, .check fields? strict limit? color⟩) := by
  obtain ⟨message, run_eq, nothing_read⟩ | ⟨query, checked, read_eq, looks_up, run_eq⟩ :=
    run_check_cases load_eq fields? strict
  · rw [run_eq]
    refine ⟨iff_of_false nofun ?_, fun query checked parse_eq looks_up => ?_⟩
    · rintro ⟨root, spells, has_fields⟩
      obtain ⟨checked, looks_up, -⟩ :=
        (Environment.exists_passes_iff spells.isQuery source strict).2 has_fields
      exact nothing_read _ checked (readQuery_eq_ok_iff.2 spells.parse_eq) looks_up
    · exact absurd looks_up (nothing_read query checked (readQuery_eq_ok_iff.2 parse_eq))
  · have parse_eq := readQuery_eq_ok_iff.1 read_eq
    obtain ⟨passes, outcome_eq⟩ | ⟨not_passes, outcome_eq⟩ := runCheck_cases env strict color checked
    · rw [run_eq, outcome_eq]
      refine ⟨iff_of_true rfl ?_, fun _ _ _ _ not_zero => absurd rfl not_zero⟩
      obtain ⟨root, spells, rfl⟩ :=
        Query.exists_spells_of_isValid parse_eq (looks_up.isValid parse_eq passes.1)
      exact ⟨root, spells,
        (Environment.exists_passes_iff spells.isQuery source strict).1 ⟨checked, looks_up, passes⟩⟩
    · rw [run_eq, outcome_eq]
      refine ⟨iff_of_false nofun ?_, fun query' checked' parse_eq' looks_up' _ => ?_⟩
      · rintro ⟨root, spells, has_fields⟩
        obtain rfl := Except.ok.inj (parse_eq.symm.trans spells.parse_eq)
        obtain ⟨checked', looks_up', passes⟩ :=
          (Environment.exists_passes_iff spells.isQuery source strict).2 has_fields
        rw [looks_up.unique looks_up'] at passes
        exact not_passes passes
      · obtain rfl := Except.ok.inj (parse_eq'.symm.trans parse_eq)
        obtain rfl := looks_up.unique looks_up'
        obtain ⟨catalogs, rfl⟩ := looks_up'.exists_catalogs
        exact reported_of_not_nil parse_eq catalogs color
          (Query.diagnostics_ne_nil parse_eq catalogs not_passes)

theorem exists_canonical {limit : Nat} {root : Tree} (spells : Query.Spells limit source root) :
    ∃ text, root.format? = some (.ok text) ∧ text.toList = root.dateFirst.layout := by
  obtain ⟨is_dateFirst, select_eq, -⟩ := spells.isQuery.dateFirst
  obtain ⟨text, text_eq⟩ : ∃ text : String, text.toList = root.dateFirst.layout :=
    ⟨.ofList _, String.toList_ofList⟩
  refine ⟨text, ?_, text_eq⟩
  rw [Tree.format?, ← select_eq]
  exact format?_of_dateFirst is_dateFirst text_eq

/-- Of what is spelled out the canonical text is written. -/
theorem run_fmt_of_spells (load_eq : env.loadQuery path? text? = .ok source) (color : Color)
    {root : Tree} (spells : Query.Spells (limit?.getD Grammar.defaultLimit) source root) :
    ∃ text, root.format? = some (.ok text) ∧ text.toList = root.dateFirst.layout ∧
      run env ⟨path?, text?, .fmt limit? color⟩ = ⟨0, text ++ "\n", ""⟩ := by
  obtain ⟨text, format_eq, text_eq⟩ := exists_canonical spells
  refine ⟨text, format_eq, text_eq, ?_⟩
  obtain ⟨message, -, nothing_read⟩ | ⟨query, read_eq, run_eq⟩ := run_fmt_cases load_eq limit? color
  · exact absurd (readQuery_eq_ok_iff.2 spells.parse_eq) (nothing_read _)
  · obtain rfl := Except.ok.inj ((readQuery_eq_ok_iff.1 read_eq).symm.trans spells.parse_eq)
    have root_eq : (Query.clean source root).root?.bind Tree.format? = some (.ok text) := format_eq
    rw [run_eq, runFmt, if_pos (Query.isValid_clean source root), root_eq]

theorem isFormatting_run (load_eq : env.loadQuery path? text? = .ok source) :
    IsFormatting env source (limit?.getD Grammar.defaultLimit) color
      (run env ⟨path?, text?, .fmt limit? color⟩) := by
  have written : ∀ root, Query.Spells (limit?.getD Grammar.defaultLimit) source root →
      ∃ text, root.format? = some (.ok text) ∧ text.toList = root.dateFirst.layout ∧
        run env ⟨path?, text?, .fmt limit? color⟩ = ⟨0, text ++ "\n", ""⟩ :=
    fun _ => run_fmt_of_spells load_eq color
  obtain ⟨message, run_eq, nothing_read⟩ | ⟨query, read_eq, run_eq⟩ :=
    run_fmt_cases load_eq limit? color
  · refine ⟨⟨fun zero => ?_, fun ⟨root, spells⟩ => ?_⟩, written, fun query parse_eq => ?_⟩
    · rw [run_eq] at zero
      cases zero
    · exact absurd (readQuery_eq_ok_iff.2 spells.parse_eq) (nothing_read _)
    · exact absurd (readQuery_eq_ok_iff.2 parse_eq) (nothing_read query)
  · have parse_eq := readQuery_eq_ok_iff.1 read_eq
    cases valid_eq : query.isValid with
    | true =>
        obtain ⟨root, spells, -⟩ := Query.exists_spells_of_isValid parse_eq valid_eq
        obtain ⟨text, -, -, run_eq⟩ := written root spells
        rw [run_eq] at written ⊢
        exact ⟨iff_of_true rfl ⟨root, spells⟩, written, fun _ _ not_zero => absurd rfl not_zero⟩
    | false =>
        have fails : runFmt env color query = ⟨1, "", drawReports env color query⟩ :=
          if_neg (by rw [valid_eq]; nofun)
        rw [run_eq, fails] at written ⊢
        refine ⟨iff_of_false nofun ?_, written, fun query' parse_eq' _ => ?_⟩
        · rintro ⟨root, spells⟩
          obtain rfl := Except.ok.inj (parse_eq.symm.trans spells.parse_eq)
          rw [Query.isValid_clean] at valid_eq
          cases valid_eq
        · obtain rfl := Except.ok.inj (parse_eq.symm.trans parse_eq')
          have not_passes : ¬ query.Passes false := fun passes => by
            rw [passes.1] at valid_eq
            cases valid_eq
          exact reported_of_not_nil parse_eq [] color
            (Query.diagnostics_ne_nil parse_eq [] not_passes)

end

/-- Whatever text is given that is not blank, and whatever limit, which is 256 if none is given, what
the commands write and how they end tells exactly what the text and the field list are. -/
theorem run_verdict {path? text? : Option String} (gives : env.Gives path? text? source)
    (not_blank : Text.allBlank source.toList = false) (limit? : Option Nat) (color : Color) :
    ((∃ root, Query.Spells (limit?.getD 256) source root) ↔
      Grammar.Sentence (Tree.kindsOf (tokenize source).dropLast) ∧
        ∀ root, Grammar.IsQuery root → root.tokens = (tokenize source).dropLast →
          root.nesting ≤ limit?.getD 256) ∧
    (∀ fields? strict, IsCheck env source (limit?.getD 256) fields? strict color
      (run env ⟨path?, text?, .check fields? strict limit? color⟩)) ∧
    IsFormatting env source (limit?.getD 256) color
      (run env ⟨path?, text?, .fmt limit? color⟩) := by
  have load_eq := Environment.loadQuery_of_gives gives not_blank
  exact ⟨Query.exists_spells_iff, isCheck_run load_eq, isFormatting_run load_eq⟩

/-- A field that is selected by both of its names passes a check, but not where warnings count. -/
theorem run_verdict_selected_twice :
    ∃ env : Environment,
      env.Gives none (some "select id, System.ID from workitems")
        "select id, System.ID from workitems" ∧
      Text.allBlank "select id, System.ID from workitems".toList = false ∧
      (run env ⟨none, some "select id, System.ID from workitems",
        .check (some "fields") false none .never⟩).exit = 0 ∧
      (run env ⟨none, some "select id, System.ID from workitems",
        .check (some "fields") true none .never⟩).exit = 1 ∧
      (∀ fields? strict, IsCheck env "select id, System.ID from workitems" 256 fields? strict .never
        (run env ⟨none, some "select id, System.ID from workitems",
          .check fields? strict none .never⟩)) ∧
      IsFormatting env "select id, System.ID from workitems" 256 .never
        (run env ⟨none, some "select id, System.ID from workitems", .fmt none .never⟩) := by
  have not_blank : Text.allBlank "select id, System.ID from workitems".toList = false := by
    decide +kernel
  exact ⟨{ file := fun _ => .ok "[[\"ID\",\"System.Id\"]]", stdin := .ok "" }, .text _ _, not_blank,
    by decide +kernel, by decide +kernel, (run_verdict (.text _ _) not_blank none .never).2⟩

end CommandLine
end WorkItemQuery
