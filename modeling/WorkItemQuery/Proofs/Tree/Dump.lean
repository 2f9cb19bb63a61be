import Mathlib.Data.List.Nodup
import WorkItemQuery.Proofs.Text.Quoted
import WorkItemQuery.Proofs.Tree.Layout
import WorkItemQuery.Tree.Dump

/-!
# Listings tell trees apart

A line of a listing tells how far in it stands, its kind, and the text of a token.  No line ends
inside a text, so the listing tells its lines.  The lines below a node are those further in, up to
the next that is not, so the lines tell the tree: all but the places of its tokens.
-/

namespace WorkItemQuery

/-! ## Names -/

namespace Kind

@[simp]
theorem ofName?_name : ∀ kind : Kind, ofName? kind.name = some kind := by
  decide +kernel

theorem name_injective : Function.Injective name := by
  intro kind other same
  have found := ofName?_name kind
  rw [same, ofName?_name] at found
  exact (Option.some.inj found).symm

/-- The name of a kind is a word. -/
theorem notMem_name : ∀ kind : Kind, ' ' ∉ kind.name.toList ∧ '\n' ∉ kind.name.toList := by
  decide +kernel

theorem name_ne_nil : ∀ kind : Kind, kind.name.toList ≠ [] := by
  decide +kernel

end Kind

namespace Tree

/-! ## Lines -/

/-- What a line of a listing shows. -/
structure Row where
  /-- How far in it stands. -/
  depth : Nat
  /-- The kind of a token or a node. -/
  kind : Kind
  /-- The text of a token. -/
  text? : Option String

/-- What a line shows behind the kind. -/
def Row.tail (row : Row) : List Char :=
  match row.text? with
  | none => []
  | some text => ' ' :: (Text.quoted text).toList

/-- The line of a row. -/
def Row.line (row : Row) : List Char :=
  List.replicate (2 * row.depth) ' ' ++ (row.kind.name.toList ++ row.tail)

mutual

/-- The rows of a tree whose root stands at a depth. -/
def rows (depth : Nat) : Tree → List Row
  | .leaf token => [⟨depth, token.kind, some token.text⟩]
  | .node kind children => ⟨depth, kind, none⟩ :: rowsAll (depth + 1) children

/-- The rows of a list of trees whose roots stand at a depth. -/
def rowsAll (depth : Nat) : List Tree → List Row
  | [] => []
  | tree :: rest => tree.rows depth ++ rowsAll depth rest

end

mutual

theorem dumpLines_eq (depth : Nat) : (tree : Tree) →
    tree.dumpLines depth = (tree.rows depth).map fun row => String.ofList row.line
  | .leaf token => by
      simp [dumpLines, rows, Row.line, Row.tail, indentation, String.append_assoc]
  | .node kind children => by
      rw [dumpLines, rows, List.map_cons, dumpLinesAll_eq (depth + 1) children]
      simp [Row.line, Row.tail, indentation]

theorem dumpLinesAll_eq (depth : Nat) : (trees : List Tree) →
    dumpLinesAll depth trees = (rowsAll depth trees).map fun row => String.ofList row.line
  | [] => rfl
  | tree :: rest => by
      rw [dumpLinesAll, rowsAll, List.map_append, dumpLines_eq depth tree,
        dumpLinesAll_eq depth rest]

end

theorem toList_dump (tree : Tree) :
    tree.dump.toList = (tree.rows 0).flatMap fun row => row.line ++ ['\n'] := by
  rw [dump, dumpLines_eq]
  induction tree.rows 0 with
  | nil => rfl
  | cons row rest ih =>
      rw [List.map_cons, List.map_cons, String.join_cons, String.toList_append, ih]
      simp

theorem Row.takeWhile_line (row : Row) :
    row.line.takeWhile (· == ' ') = List.replicate (2 * row.depth) ' ' := by
  obtain ⟨first, more, name_eq⟩ := List.exists_cons_of_ne_nil row.kind.name_ne_nil
  have first_ne : first ≠ ' ' := by
    rintro rfl
    exact row.kind.notMem_name.1 (name_eq ▸ .head _)
  rw [Row.line, name_eq, List.takeWhile_append_of_pos fun char mem =>
    beq_iff_eq.2 (List.eq_of_mem_replicate mem), List.cons_append,
    List.takeWhile_cons_of_neg (by simpa using first_ne), List.append_nil]

/-- What stands behind the blanks tells the kind and the text. -/
theorem Row.tail_inj {row row' : Row}
    (same : row.kind.name.toList ++ row.tail = row'.kind.name.toList ++ row'.tail) :
    row.kind = row'.kind ∧ row.text? = row'.text? := by
  have kind_eq : row.kind.name.toList = row'.kind.name.toList → row.kind = row'.kind :=
    fun names_eq => Kind.name_injective (String.toList_inj.1 names_eq)
  have no_blank := row.kind.notMem_name.1
  have no_blank' := row'.kind.notMem_name.1
  rw [Row.tail, Row.tail] at same
  cases text_eq : row.text? <;> cases text_eq' : row'.text? <;> rw [text_eq, text_eq'] at same
  case none.none =>
    rw [List.append_nil, List.append_nil] at same
    exact ⟨kind_eq same, rfl⟩
  case none.some text' =>
    rw [List.append_nil] at same
    exact absurd (same ▸ List.mem_append_right _ (.head _)) no_blank
  case some.none text =>
    rw [List.append_nil] at same
    exact absurd (same ▸ List.mem_append_right _ (.head _)) no_blank'
  case some.some text text' =>
    obtain ⟨names_eq, quoted_eq⟩ := Text.append_cons_inj no_blank no_blank' same
    rw [Text.quoted_injective (String.toList_inj.1 quoted_eq)]
    exact ⟨kind_eq names_eq, rfl⟩

/-- A line tells its row. -/
theorem Row.line_injective : Function.Injective Row.line := by
  intro row row' same
  have blanks_eq : List.replicate (2 * row.depth) ' ' = List.replicate (2 * row'.depth) ' ' := by
    rw [← row.takeWhile_line, ← row'.takeWhile_line, same]
  have depth_eq : row.depth = row'.depth := by
    have length_eq := congrArg List.length blanks_eq
    rw [List.length_replicate, List.length_replicate] at length_eq
    omega
  rw [Row.line, Row.line, blanks_eq] at same
  obtain ⟨kind_eq, text_eq⟩ := Row.tail_inj (List.append_cancel_left same)
  cases row
  cases row'
  congr

theorem Row.newline_notMem (row : Row) : '\n' ∉ row.line := by
  rw [Row.line, List.mem_append, List.mem_append, not_or, not_or]
  refine ⟨fun mem => ?_, row.kind.notMem_name.2, ?_⟩
  · cases List.eq_of_mem_replicate mem
  · rw [Row.tail]
    split
    · nofun
    · rw [List.mem_cons, not_or]
      exact ⟨by decide, Text.newline_notMem_quoted _⟩

/-- A listing tells its rows. -/
theorem flatMap_line_injective :
    Function.Injective fun rows : List Row => rows.flatMap fun row => row.line ++ ['\n'] := by
  intro rows
  induction rows with
  | nil =>
      intro other same
      cases other with
      | nil => rfl
      | cons row other => exact absurd same (by simp)
  | cons row rows ih =>
      intro other same
      cases other with
      | nil => exact absurd same (by simp)
      | cons row' other =>
          simp only [List.flatMap_cons, List.append_assoc, List.singleton_append] at same
          obtain ⟨line_eq, rest_eq⟩ :=
            Text.append_cons_inj row.newline_notMem row'.newline_notMem same
          rw [Row.line_injective line_eq, ih rest_eq]

/-! ## Trees -/

/-- The trees differ in the places of their tokens only. -/
structure SameButPlaces (tree tree' : Tree) : Prop where
  /-- Their nodes and tokens are of the same kinds. -/
  alike : Alike tree tree'
  /-- Their tokens have the same texts. -/
  texts_eq : tree'.tokens.map (·.text) = tree.tokens.map (·.text)

/-- The trees of two lists differ in the places of their tokens only. -/
structure SameButPlacesAll (trees trees' : List Tree) : Prop where
  /-- Their nodes and tokens are of the same kinds. -/
  alike : AlikeAll trees trees'
  /-- Their tokens have the same texts. -/
  texts_eq : (tokensAll trees').map (·.text) = (tokensAll trees).map (·.text)

/-- The next row, if there is one, does not stand as far in as this. -/
def EndsAt (depth : Nat) (rows : List Row) : Prop := ∀ row ∈ rows.head?, row.depth < depth

theorem endsAt_nil (depth : Nat) : EndsAt depth [] := nofun

theorem exists_rows_eq (depth : Nat) (tree : Tree) :
    ∃ row more, tree.rows depth = row :: more ∧ row.depth = depth := by
  cases tree <;> exact ⟨_, _, rfl, rfl⟩

theorem endsAt_rowsAll_append {depth : Nat} {rest : List Row} (ends : EndsAt depth rest)
    (trees : List Tree) : EndsAt (depth + 1) (rowsAll depth trees ++ rest) := by
  cases trees with
  | nil => exact fun row mem => Nat.lt_succ_of_lt (ends row mem)
  | cons tree trees =>
      obtain ⟨row, more, rows_eq, rfl⟩ := exists_rows_eq depth tree
      rw [rowsAll, rows_eq]
      rintro _ ⟨⟩
      exact Nat.lt_succ_self _

/-- Rows that do not stand far enough in do not begin with a tree. -/
theorem EndsAt.ne_rows_append {depth : Nat} {rest : List Row} (ends : EndsAt depth rest)
    (tree : Tree) (more : List Row) : rest ≠ tree.rows depth ++ more := by
  obtain ⟨row, below, rows_eq, depth_eq⟩ := exists_rows_eq depth tree
  rintro rfl
  have less := ends row (by rw [rows_eq]; rfl)
  omega

mutual

/-- The rows of a tree tell the tree, and where it ends. -/
theorem same_of_rows {depth : Nat} {rest rest' : List Row} : (tree tree' : Tree) →
    EndsAt (depth + 1) rest → EndsAt (depth + 1) rest' →
    tree.rows depth ++ rest = tree'.rows depth ++ rest' →
    SameButPlaces tree tree' ∧ rest = rest'
  | .leaf token, .leaf token', _, _, rows_eq => by
      obtain ⟨row_eq, rest_eq⟩ := List.cons.inj rows_eq
      obtain ⟨-, kind_eq, text_eq⟩ := Row.mk.inj row_eq
      refine ⟨⟨.leaf kind_eq.symm, ?_⟩, rest_eq⟩
      rw [tokens_leaf, tokens_leaf, List.map_singleton, List.map_singleton,
        Option.some.inj text_eq]
  | .leaf _, .node _ _, _, _, rows_eq => nomatch (Row.mk.inj (List.cons.inj rows_eq).1).2.2
  | .node _ _, .leaf _, _, _, rows_eq => nomatch (Row.mk.inj (List.cons.inj rows_eq).1).2.2
  | .node kind children, .node kind' children', ends, ends', rows_eq => by
      obtain ⟨row_eq, below_eq⟩ := List.cons.inj rows_eq
      obtain rfl := (Row.mk.inj row_eq).2.1
      obtain ⟨same, rest_eq⟩ := same_of_rowsAll children children' ends ends' below_eq
      exact ⟨⟨.node same.alike, same.texts_eq⟩, rest_eq⟩

theorem same_of_rowsAll {depth : Nat} {rest rest' : List Row} : (trees trees' : List Tree) →
    EndsAt depth rest → EndsAt depth rest' →
    rowsAll depth trees ++ rest = rowsAll depth trees' ++ rest' →
    SameButPlacesAll trees trees' ∧ rest = rest'
  | [], [], _, _, rows_eq => ⟨⟨.nil, rfl⟩, rows_eq⟩
  | [], tree' :: trees', ends, _, rows_eq => by
      rw [rowsAll, rowsAll, List.nil_append, List.append_assoc] at rows_eq
      exact absurd rows_eq (ends.ne_rows_append tree' _)
  | tree :: trees, [], _, ends', rows_eq => by
      rw [rowsAll, rowsAll, List.nil_append, List.append_assoc] at rows_eq
      exact absurd rows_eq.symm (ends'.ne_rows_append tree _)
  | tree :: trees, tree' :: trees', ends, ends', rows_eq => by
      rw [rowsAll, rowsAll, List.append_assoc, List.append_assoc] at rows_eq
      obtain ⟨same_tree, behind_eq⟩ := same_of_rows tree tree' (endsAt_rowsAll_append ends trees)
        (endsAt_rowsAll_append ends' trees') rows_eq
      obtain ⟨same_rest, rest_eq⟩ := same_of_rowsAll trees trees' ends ends' behind_eq
      refine ⟨⟨.cons same_tree.alike same_rest.alike, ?_⟩, rest_eq⟩
      rw [tokensAll_cons, tokensAll_cons, List.map_append, List.map_append, same_tree.texts_eq,
        same_rest.texts_eq]

end

mutual

/-- The rows do not show the places. -/
theorem rows_eq_of_same (depth : Nat) : {tree tree' : Tree} → Alike tree tree' →
    tree'.tokens.map (·.text) = tree.tokens.map (·.text) → tree'.rows depth = tree.rows depth
  | .leaf token, .leaf token', .leaf kind_eq, texts_eq => by
      have text_eq : token'.text = token.text := List.head_eq_of_cons_eq texts_eq
      rw [rows, rows, kind_eq, text_eq]
  | .node kind _, .node _ _, .node alike, texts_eq => by
      rw [rows, rows, rowsAll_eq_of_same (depth + 1) alike texts_eq]

theorem rowsAll_eq_of_same (depth : Nat) : {trees trees' : List Tree} → AlikeAll trees trees' →
    (tokensAll trees').map (·.text) = (tokensAll trees).map (·.text) →
    rowsAll depth trees' = rowsAll depth trees
  | [], [], .nil, _ => rfl
  | tree :: trees, tree' :: trees', .cons alike_tree alike_rest, texts_eq => by
      rw [tokensAll_cons, tokensAll_cons, List.map_append, List.map_append] at texts_eq
      obtain ⟨tree_eq, rest_eq⟩ := List.append_inj texts_eq (by
        rw [List.length_map, List.length_map, alike_tree.length_tokens])
      rw [rowsAll, rowsAll, rows_eq_of_same depth alike_tree tree_eq,
        rowsAll_eq_of_same depth alike_rest rest_eq]

end

/-- Trees have the same listing exactly if they differ in the places of their tokens only. -/
theorem dump_eq_iff (tree tree' : Tree) : tree.dump = tree'.dump ↔ SameButPlaces tree tree' := by
  constructor
  · intro dump_eq
    have lists_eq := congrArg String.toList dump_eq
    rw [toList_dump, toList_dump] at lists_eq
    have rows_eq : tree.rows 0 ++ [] = tree'.rows 0 ++ [] := by
      rw [flatMap_line_injective lists_eq]
    exact (same_of_rows tree tree' (endsAt_nil 1) (endsAt_nil 1) rows_eq).1
  · intro same
    rw [← String.toList_inj, toList_dump, toList_dump,
      rows_eq_of_same 0 same.alike same.texts_eq]

end Tree
end WorkItemQuery
