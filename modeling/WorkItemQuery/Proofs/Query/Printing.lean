import Mathlib.Data.List.Forall2
import WorkItemQuery.Proofs.Query.RoundTrip

/-!
# What the canonical text depends on

The canonical text of a query depends on the shape of its tree and the canonical spelling of its
tokens only.
-/

namespace WorkItemQuery

namespace Tree

variable {change : Token → Token}

theorem mapTokensAll_eq_map (trees : List Tree) :
    mapTokensAll change trees = trees.map (mapTokens change) := by
  induction trees with
  | nil => rfl
  | cons tree rest ih => rw [mapTokensAll, List.map_cons, ih]

/-- The date is put before the mode in whatever tokens. -/
theorem dateFirst_mapTokens (keeps_kind : KeepsKind change) (tree : Tree) :
    (tree.mapTokens change).dateFirst = tree.dateFirst.mapTokens change := by
  have same_test : ∀ kind : Kind, (fun child : Tree => child.kind != kind) ∘ mapTokens change =
      fun child => child.kind != kind := by
    intro kind
    funext child
    rw [Function.comp_apply, kind_mapTokens keeps_kind]
  cases tree with
  | leaf token => rfl
  | node kind children =>
      rw [mapTokens, dateFirst, dateFirst, mapTokens, mapTokensAll_eq_map, mapTokensAll_eq_map,
        dateFirstAmong, dateFirstAmong]
      simp only [List.takeWhile_map, List.dropWhile_map, same_test, List.map_append]

end Tree

namespace Token

/-- The token without a place, in its canonical spelling. -/
def printed (token : Token) : Token := ofSpelling token.canonicalSpelling

theorem keepsKind_printed : Tree.KeepsKind printed := fun _ => rfl

theorem canonicalText_printed (token : Token) : token.printed.canonicalText = token.canonicalText := by
  simp only [printed, ofSpelling, canonicalSpelling, canonicalText, String.ofList_toList]
  cases token.kind.canonicalText? <;> rfl

end Token

/-- What lists agree in token by token are the same lists. -/
theorem map_eq_of_forall₂ {α β : Type} {related : α → α → Prop} {image : α → β}
    (same_image : ∀ item item', related item item' → image item' = image item)
    {items items' : List α} (same : List.Forall₂ related items items') :
    items'.map image = items.map image := by
  induction same with
  | nil => rfl
  | cons item_same _ ih => rw [List.map_cons, List.map_cons, same_image _ _ item_same, ih]

namespace Tree.Alike

variable {root root' : Tree}

theorem printed_eq (alike : Alike root root')
    (spellings_eq : root'.tokens.map Token.canonicalSpelling =
      root.tokens.map Token.canonicalSpelling) :
    root'.mapTokens Token.printed = root.mapTokens Token.printed := by
  have tokens_eq := congrArg (List.map Token.ofSpelling) spellings_eq
  rw [List.map_map, List.map_map] at tokens_eq
  exact alike.mapTokens_eq tokens_eq

theorem nesting_eq (alike : Alike root root')
    (spellings_eq : root'.tokens.map Token.canonicalSpelling =
      root.tokens.map Token.canonicalSpelling) : root'.nesting = root.nesting := by
  have trees_eq := congrArg nesting (alike.printed_eq spellings_eq)
  rwa [nesting_mapTokens Token.keepsKind_printed, nesting_mapTokens Token.keepsKind_printed]
    at trees_eq

end Tree.Alike

namespace Grammar.IsQuery

variable {root : Tree}

theorem format?_eq (is_query : IsQuery root) {text : String}
    (text_eq : text.toList = root.dateFirst.layout) : root.format? = some (.ok text) := by
  obtain ⟨is_dateFirst, select_eq, -⟩ := is_query.dateFirst
  rw [Tree.format?, ← select_eq]
  exact format?_of_dateFirst is_dateFirst text_eq

theorem exists_format? (is_query : IsQuery root) : ∃ text, root.format? = some (.ok text) :=
  ⟨_, is_query.format?_eq String.toList_ofList⟩

end Grammar.IsQuery

/-- Queries of one shape have one canonical text if their tokens have the same canonical
spelling. -/
theorem format?_eq_of_alike {root root' : Tree} (is_query : Grammar.IsQuery root)
    (alike : Tree.Alike root root')
    (spellings_eq : root'.tokens.map Token.canonicalSpelling =
      root.tokens.map Token.canonicalSpelling) :
    root'.format? = root.format? := by
  have trees_eq := congrArg Tree.dateFirst (alike.printed_eq spellings_eq)
  rw [Tree.dateFirst_mapTokens Token.keepsKind_printed,
    Tree.dateFirst_mapTokens Token.keepsKind_printed] at trees_eq
  have layout_eq : root'.dateFirst.layout = root.dateFirst.layout := by
    have layout_eq := congrArg Tree.layout trees_eq
    rwa [Tree.layout_mapTokens Token.keepsKind_printed Token.canonicalText_printed,
      Tree.layout_mapTokens Token.keepsKind_printed Token.canonicalText_printed] at layout_eq
  have text_eq : (String.ofList root.dateFirst.layout).toList = root.dateFirst.layout :=
    String.toList_ofList
  rw [is_query.format?_eq text_eq, (is_query.alike alike).format?_eq (text_eq.trans layout_eq.symm)]

end WorkItemQuery
