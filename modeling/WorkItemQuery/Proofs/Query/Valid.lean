import WorkItemQuery.Proofs.Query.Respaced
import WorkItemQuery.Proofs.Query.Validation

/-!
# Valid queries

A query is valid exactly if its tokens are the word of a derivation tree, which keeps within the
limit.  Then nothing at all is reported on its text.  A look-up of its fields finds errors where a
name is unknown, and warnings where a field is selected twice.
-/

namespace WorkItemQuery

/-- Warnings are all of one kind, and do not hide each other. -/
theorem Diagnostic.filtered_of_no_errors {diagnostics : List Diagnostic}
    (no_errors : hasErrors diagnostics = false) : filtered diagnostics = diagnostics := by
  have problem_eq : ∀ diagnostic ∈ diagnostics, diagnostic.problem = .duplicateField := by
    have warnings : ∀ problem : Problem, problem.severity ≠ .error → problem = .duplicateField := by
      intro problem
      cases problem <;> decide
    intro diagnostic mem
    refine warnings _ fun is_error => ?_
    exact List.any_eq_false.1 no_errors diagnostic mem (beq_iff_eq.2 is_error)
  refine filtered_eq_self fun diagnostic mem => ?_
  rintro ⟨other, other_mem, other_hides⟩
  have less := (hides_iff.1 other_hides).2
  rw [problem_eq other other_mem, problem_eq diagnostic mem] at less
  exact Nat.lt_irrefl _ less

namespace Query

/-- The text spells out a query: its tokens are the word of a derivation tree in which conditions
nest up to a limit. -/
structure Spells (limit : Nat) (source : String) (root : Tree) : Prop where
  /-- The tree is one of the grammar. -/
  isQuery : Grammar.IsQuery root
  /-- Its word is all of the text. -/
  tokens_eq : root.tokens = (tokenize source).dropLast
  /-- It keeps within the limit. -/
  within : root.nesting ≤ limit

/-- A query on whose text nothing is reported. -/
def clean (source : String) (root : Tree) : Query where
  source := source
  tokens := tokenize source
  root? := some root
  parseDiagnostics := []

variable {limit : Nat} {source : String} {query : Query} {root : Tree}

/-- A text spells out a query if its kinds are a sentence, the tree of which keeps within the
limit. -/
theorem exists_spells_iff :
    (∃ root, Spells limit source root) ↔
      Grammar.Sentence (Tree.kindsOf (tokenize source).dropLast) ∧
        ∀ root, Grammar.IsQuery root → root.tokens = (tokenize source).dropLast →
          root.nesting ≤ limit := by
  constructor
  · rintro ⟨root, is_query, tokens_eq, within⟩
    refine ⟨⟨root, is_query, congrArg Tree.kindsOf tokens_eq⟩, fun root' is_query' tokens_eq' => ?_⟩
    rwa [is_query.eq_of_tokens_eq is_query' (tokens_eq'.trans tokens_eq.symm)]
  · rintro ⟨sentence, within⟩
    obtain ⟨root, is_query, tokens_eq⟩ := sentence.exists_tree
    exact ⟨root, is_query, tokens_eq, within root is_query tokens_eq⟩

theorem Spells.parse_eq (spells : Spells limit source root) :
    parse (some limit) source = .ok (clean source root) := by
  obtain ⟨init, final, tokens_eq, is_list, -⟩ := exists_tokenize_eq source
  have init_eq := spells.tokens_eq
  rw [tokens_eq, List.dropLast_concat] at init_eq
  have reading_eq : Grammar.parse (some limit) (tokenize source) =
      .ok ⟨tokenize source, some root, []⟩ := by
    rw [tokens_eq, ← init_eq]
    refine Grammar.parse_of_isQuery_within spells.isQuery is_list.final_kind ?_
    rintro _ ⟨⟩
    exact spells.within
  rw [parse, reading_eq]
  rfl

/-- What is valid is spelled out, and nothing is reported on it. -/
theorem exists_spells_of_isValid (parse_eq : parse (some limit) source = .ok query)
    (is_valid : query.isValid = true) :
    ∃ root, Spells limit source root ∧ query = clean source root := by
  obtain ⟨reading, reading_eq, rfl⟩ := exists_reading parse_eq
  obtain ⟨init, final, tokens_eq, is_list, -⟩ := exists_tokenize_eq source
  obtain ⟨has_root, no_errors⟩ : reading.root?.isSome = true ∧
      Diagnostic.hasErrors reading.diagnostics = false := by
    rw [isValid, Bool.and_eq_true, Bool.and_eq_true, Bool.not_eq_true'] at is_valid
    exact is_valid.1
  obtain ⟨root, root_eq⟩ := Option.isSome_iff_exists.1 has_root
  obtain ⟨is_query, -, within⟩ := Grammar.derivation_of_parse reading_eq root_eq
  have init_eq := Grammar.tokens_of_no_errors is_list (tokens_eq ▸ reading_eq) root_eq no_errors
  have spells : Spells limit source root :=
    ⟨is_query, by rw [tokens_eq, List.dropLast_concat, init_eq], within limit rfl⟩
  exact ⟨root, spells, Except.ok.inj (parse_eq.symm.trans spells.parse_eq)⟩

theorem isValid_clean (source : String) (root : Tree) : (clean source root).isValid = true := rfl

/-- A query passes if it is valid and, where warnings count, has none. -/
def Passes (query : Query) (strict : Bool) : Prop :=
  query.isValid = true ∧ (strict = true → Diagnostic.hasWarnings query.diagnostics = false)

theorem passes_clean (source : String) (root : Tree) (strict : Bool) :
    (clean source root).Passes strict := ⟨rfl, fun _ => rfl⟩

/-- A valid query passes with its fields looked up if they are all known and, where warnings count,
none is selected twice. -/
theorem passes_validate_iff (is_query : Grammar.IsQuery root) (strict : Bool)
    (catalog : FieldCatalog) :
    ((clean source root).validate catalog).Passes strict ↔
      (∀ field ∈ fieldsAmong root.tokens, (catalog.get? field.name).isSome = true) ∧
      (strict = true →
        (fieldsAmong (root.tokens.takeWhile (·.kind != .fromKw))).Pairwise fun first field =>
          catalog.sameField first.name field.name = false) := by
  have isValid_iff : ((clean source root).validate catalog).isValid = true ↔
      Diagnostic.hasErrors (catalog.check root) = false := by
    rw [isValid, Bool.and_eq_true, Bool.not_eq_true']
    exact and_iff_right rfl
  have diagnostics_eq : Diagnostic.hasErrors (catalog.check root) = false →
      ((clean source root).validate catalog).diagnostics = catalog.check root :=
    Diagnostic.filtered_of_no_errors
  rw [Passes, isValid_iff, ← hasErrors_check catalog is_query, ← hasWarnings_check catalog is_query]
  refine and_congr_right fun no_errors => ?_
  rw [diagnostics_eq no_errors]

/-- Where nothing is read, an error is reported. -/
theorem hasErrors_of_no_root {limit : Option Nat} (parse_eq : parse limit source = .ok query)
    (no_root : query.root? = none) : Diagnostic.hasErrors query.parseDiagnostics = true := by
  obtain ⟨reading, reading_eq, rfl⟩ := exists_reading parse_eq
  obtain ⟨init, final, tokens_eq, is_list, -⟩ := exists_tokenize_eq source
  rw [tokens_eq] at reading_eq
  obtain ⟨verdict, reports_eq, ends⟩ := Grammar.ends_of_parse is_list reading_eq
  obtain ⟨report, mem, is_error⟩ := ends.exists_error no_root
  exact List.any_eq_true.2 ⟨report, reports_eq ▸ mem, is_error⟩

/-- Where a query is not valid, an error is reported. -/
theorem hasErrors_of_not_valid {limit : Option Nat} (parse_eq : parse limit source = .ok query)
    (catalogs : List FieldCatalog)
    (not_valid : (catalogs.foldl validate query).isValid = false) :
    Diagnostic.hasErrors (catalogs.foldl validate query).diagnostics = true := by
  have no_root := hasErrors_of_no_root parse_eq
  rw [foldl_validate query (fieldDiagnostics_of_parse parse_eq) catalogs] at not_valid ⊢
  generalize (catalogs.getLast?.bind fun catalog => query.root?.map catalog.check).getD [] = found
    at not_valid
  rw [diagnostics, Diagnostic.hasErrors_filtered, Diagnostic.hasErrors, List.any_append,
    Bool.or_eq_true]
  cases root_eq : query.root? with
  | none => exact .inl (no_root root_eq)
  | some root =>
      rw [isValid, root_eq, Option.isSome_some, Bool.true_and, Bool.and_eq_false_iff] at not_valid
      simpa [Diagnostic.hasErrors] using not_valid

/-- Where a query does not pass, something is reported on it. -/
theorem diagnostics_ne_nil {limit : Option Nat} (parse_eq : parse limit source = .ok query)
    (catalogs : List FieldCatalog) {strict : Bool}
    (not_passes : ¬ (catalogs.foldl validate query).Passes strict) :
    (catalogs.foldl validate query).diagnostics ≠ [] := by
  intro nothing
  refine not_passes ⟨?_, fun _ => by rw [nothing]; rfl⟩
  by_contra not_valid
  have has_errors := hasErrors_of_not_valid parse_eq catalogs (by simpa using not_valid)
  rw [nothing] at has_errors
  cases has_errors

end Query
end WorkItemQuery
