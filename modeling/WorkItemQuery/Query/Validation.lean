import WorkItemQuery.Field.Catalog
import WorkItemQuery.Query

/-!
# Looking up the fields of a query

Every field name of a query must be in the catalog.  A field that is selected twice, by whichever
of its names, is worth a warning.
-/

namespace WorkItemQuery

/-- The field names of a tree, in the order of the text. -/
def Tree.fieldNames (tree : Tree) : List FieldName :=
  tree.descendants.filterMap fun node =>
    if node.kind = .field then node.readField.toOption else none

/-- The fields that a query selects, in order. -/
def Tree.selectedFields (tree : Tree) : List FieldName :=
  match tree.part? .fieldList with
  | some list => list.readFields.toOption.getD []
  | none => []

namespace FieldCatalog

/-- The report on a field name that the catalog does not have. -/
def unknownReport? (catalog : FieldCatalog) (field : FieldName) : Option Diagnostic :=
  match catalog.get? field.name with
  | some _ => none
  | none => some ((Diagnostic.of .unknownField field.identifier.span).withDetail field.name)

/-- The report on a field that is selected although an earlier name stands for it already. -/
def duplicateReport? (catalog : FieldCatalog) (earlier : List FieldName) (field : FieldName) :
    Option Diagnostic :=
  (earlier.find? fun first => catalog.sameField first.name field.name).map fun first =>
    ((Diagnostic.of .duplicateField field.identifier.span).withDetail field.name).withNote
      "first selected here" first.identifier.span

/-- The reports on the fields of a list that are selected twice, behind earlier fields. -/
def duplicateReports (catalog : FieldCatalog) (earlier : List FieldName) :
    List FieldName → List Diagnostic
  | [] => []
  | field :: rest =>
    (catalog.duplicateReport? earlier field).toList ++
      catalog.duplicateReports (earlier ++ [field]) rest

/-- What is wrong with the fields of a tree. -/
def check (catalog : FieldCatalog) (tree : Tree) : List Diagnostic :=
  tree.fieldNames.filterMap catalog.unknownReport? ++
    catalog.duplicateReports [] tree.selectedFields

end FieldCatalog

/-- The query with its fields looked up in a catalog; an earlier look-up is forgotten. -/
def Query.validate (query : Query) (catalog : FieldCatalog) : Query :=
  { query with fieldDiagnostics := (query.root?.map catalog.check).getD [] }

end WorkItemQuery
