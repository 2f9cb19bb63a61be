import WorkItemQuery.Proofs.Grammar.Alike
import WorkItemQuery.Proofs.Grammar.Depth
import WorkItemQuery.Proofs.Select.Queries
import WorkItemQuery.Query

/-!
# The text of a query is read as the query

The canonical text of a query is the layout of its tree, with the date before the mode.  It is read
as that tree again, so that it is its own canonical text.
-/

namespace WorkItemQuery

/-- The token in its canonical spelling. -/
def Token.canonical (token : Token) : Token := { token with text := token.canonicalText }

/-- The token without its place. -/
def Token.unplaced (token : Token) : Token := { token with line := 0, column := 0, offset := 0 }

namespace Token

/-- The token of a spelling, without a place. -/
def ofSpelling (spelling : Kind × List Char) : Token := ⟨⟨spelling.1, 0, 0, 0, .ofList spelling.2⟩, []⟩

@[simp]
theorem canonicalText_unplaced (token : Token) :
    token.unplaced.canonicalText = token.canonicalText := rfl

@[simp]
theorem canonicalText_canonical (token : Token) :
    token.canonical.canonicalText = token.canonicalText := by
  simp only [canonical, canonicalText]
  cases token.kind.canonicalText? <;> rfl

theorem unplaced_eq {token : Token} (before_eq : token.before = []) :
    token.unplaced = ofSpelling token.spelling := by
  simp [unplaced, ofSpelling, spelling, before_eq]

theorem canonical_unplaced_eq {token : Token} (before_eq : token.before = []) :
    token.canonical.unplaced = ofSpelling token.canonicalSpelling := by
  simp [canonical, unplaced, ofSpelling, canonicalSpelling, before_eq]

theorem keepsKind_unplaced : Tree.KeepsKind unplaced := fun _ => rfl

theorem keepsKind_canonical_unplaced :
    Tree.KeepsKind fun token => token.canonical.unplaced := fun _ => rfl

end Token

/-! ## The date before the mode -/

namespace Tree

/-- The children with those from the first `ASOF` behind the first `MODE` on put before that
`MODE`. -/
def dateFirstAmong (children : List Tree) : List Tree :=
  let front := children.takeWhile fun child => child.kind != .modeKw
  let clauses := children.dropWhile fun child => child.kind != .modeKw
  front ++ clauses.dropWhile (fun child => child.kind != .asofKw) ++
    clauses.takeWhile fun child => child.kind != .asofKw

/-- The tree of a query with its date before its mode. -/
def dateFirst : Tree → Tree
  | .leaf token => .leaf token
  | .node kind children => .node kind (dateFirstAmong children)

/-- Children that begin with one of a kind are cut off where the first of the kind stands. -/
theorem split_at_kind {kind : Kind} {front back : List Tree}
    (front_lacks : ∀ tree ∈ front, tree.kind ≠ kind) (starts : ∀ tree ∈ back.head?, tree.kind = kind) :
    (front ++ back).takeWhile (fun child => child.kind != kind) = front ∧
      (front ++ back).dropWhile (fun child => child.kind != kind) = back := by
  have before : ∀ tree ∈ front, (tree.kind != kind) = true := by simpa using front_lacks
  rw [List.takeWhile_append_of_pos before, List.dropWhile_append_of_pos before]
  cases back with
  | nil => exact ⟨List.append_nil front, rfl⟩
  | cons tree rest => simp [starts tree rfl]

theorem dateFirstAmong_append {front clauses : List Tree}
    (front_lacks : ∀ tree ∈ front, tree.kind ≠ .modeKw)
    (starts : ∀ tree ∈ clauses.head?, tree.kind = .modeKw) :
    dateFirstAmong (front ++ clauses) =
      front ++ clauses.dropWhile (fun child => child.kind != .asofKw) ++
        clauses.takeWhile fun child => child.kind != .asofKw := by
  obtain ⟨front_eq, clauses_eq⟩ := split_at_kind front_lacks starts
  rw [dateFirstAmong, front_eq, clauses_eq]

end Tree

namespace Grammar

open WorkItemQuery.Tree (firstOf dateFirstAmong dateFirstAmong_append split_at_kind)

theorem IsClause.head_kind {word : Kind} {IsBody : Tree → Prop} {clause : List Tree}
    (is_clause : IsClause word IsBody clause) : ∀ tree ∈ clause.head?, tree.kind = word := by
  cases is_clause with
  | absent => exact nofun
  | present token body token_kind =>
      rintro _ ⟨⟩
      exact token_kind

section

variable {kind : Kind} {front date mode : List Tree}

/-- What has no mode before its date stays as it is. -/
theorem dateFirstAmong_dateFirst (front_lacks : ∀ tree ∈ front, tree.kind ≠ .modeKw)
    (is_mode : IsModeClause kind mode) : dateFirstAmong (front ++ mode) = front ++ mode := by
  obtain ⟨mode_eq, none_eq⟩ := split_at_kind (fun tree mem => (is_mode.kinds tree mem).2)
    (IsClause.absent : IsClause .asofKw IsDate []).head_kind
  rw [List.append_nil] at mode_eq none_eq
  rw [dateFirstAmong_append front_lacks is_mode.head_kind, mode_eq, none_eq, List.append_nil]

theorem dateFirstAmong_modeFirst (front_lacks : ∀ tree ∈ front ++ date, tree.kind ≠ .modeKw)
    (is_mode : IsModeClause kind mode) (is_date : IsClause .asofKw IsDate date) :
    dateFirstAmong (front ++ (mode ++ date)) = front ++ (date ++ mode) := by
  cases mode with
  | nil =>
      have same := dateFirstAmong_dateFirst front_lacks .absent
      simpa using same
  | cons word mode =>
      rw [List.forall_mem_append] at front_lacks
      obtain ⟨mode_eq, date_eq⟩ := split_at_kind (fun tree mem => (is_mode.kinds tree mem).2)
        is_date.head_kind
      have starts : ∀ tree ∈ (word :: mode ++ date).head?, tree.kind = .modeKw := is_mode.head_kind
      rw [dateFirstAmong_append front_lacks.1 starts, mode_eq, date_eq, List.append_assoc]

end

/-- Putting the date before the mode does not change what a query says. -/
theorem readSelect?_modeFirst {kind : Kind} {front date mode : List Tree}
    (is_mode : IsModeClause kind mode) (is_date : IsClause .asofKw IsDate date) :
    (Tree.node kind (front ++ (date ++ mode))).readSelect? =
      (Tree.node kind (front ++ (mode ++ date))).readSelect? := by
  have date_kinds : ∀ tree ∈ date, tree.kind ∉ modeRoles := by
    have kinds : ∀ kind ∈ KindSet.ofList [.asofKw, .dateTime], kind ∉ modeRoles := by decide
    exact fun tree mem => kinds _ (is_date.kindsIn (fun _ body => body.kind_eq) tree mem)
  have swap : ∀ kinds : KindSet, (∀ kind ∈ kinds, kind ∈ modeRoles) ∨
      (∀ kind ∈ kinds, kind ∈ frontRoles) →
      firstOf kinds (front ++ (date ++ mode)) = firstOf kinds (front ++ (mode ++ date)) := by
    rintro kinds (roles | roles)
    · have not_date := Tree.firstOf_eq_none fun tree mem kind_mem =>
        date_kinds tree mem (roles _ kind_mem)
      simp only [Tree.firstOf_append, not_date, Option.none_or, Option.or_none]
    · have not_mode := Tree.firstOf_eq_none fun tree mem kind_mem =>
        (is_mode.kinds tree mem).1 (roles _ kind_mem)
      simp only [Tree.firstOf_append, not_mode, Option.none_or, Option.or_none]
  have part_eq : ∀ role ∈ frontRoles, (Tree.node kind (front ++ (date ++ mode))).part? role =
      (Tree.node kind (front ++ (mode ++ date))).part? role := by
    intro role mem
    rw [Tree.part?_node, Tree.part?_node, swap]
    exact .inr fun kind kind_mem => KindSet.mem_single.1 kind_mem ▸ mem
  have token_eq : ∀ kinds : KindSet, (∀ kind ∈ kinds, kind ∈ modeRoles) →
      (Tree.node kind (front ++ (date ++ mode))).tokenInput? kinds =
        (Tree.node kind (front ++ (mode ++ date))).tokenInput? kinds := by
    intro kinds roles
    rw [Tree.tokenInput?_node, Tree.tokenInput?_node, swap kinds (.inl roles)]
  have select_eq : ∀ scope, (Tree.node kind (front ++ (date ++ mode))).readSelectAs scope .link =
      (Tree.node kind (front ++ (mode ++ date))).readSelectAs scope .link := by
    intro scope
    simp only [Tree.readSelectAs, Tree.requirePart, Tree.readPart?, part_eq .fieldList (by decide),
      part_eq Dialect.link.expression (by decide), part_eq Dialect.link.order (by decide),
      part_eq .dateTime (by decide)]
    rfl
  obtain rfl | rfl := is_mode.kind_eq
  · rw [readSelect?_oneHop (token_eq _ (by decide)), readSelect?_oneHop rfl, select_eq]
  · rw [readSelect?_recursive (token_eq _ (by decide)) (token_eq _ (by decide)),
      readSelect?_recursive rfl rfl, select_eq]

/-- The date of a query that has been put before its mode stands there, and nothing else has
changed. -/
theorem IsQuery.dateFirst {tree : Tree} (is_query : IsQuery tree) :
    IsDateFirst tree.dateFirst ∧ tree.dateFirst.readSelect? = tree.readSelect? ∧
      tree.dateFirst.nesting = tree.nesting ∧
      ∀ token ∈ tree.dateFirst.tokens, token ∈ tree.tokens := by
  cases is_query with
  | flat head filter date is_head is_filter is_date =>
      have front_lacks := fun tree mem =>
        (front_kinds (.inl rfl) (.inl rfl) is_head is_filter is_date tree mem).2
      have same := dateFirstAmong_dateFirst front_lacks .absent
      rw [List.append_nil] at same
      rw [Tree.dateFirst, same]
      exact ⟨.flat head filter date is_head is_filter is_date, rfl, rfl, fun _ mem => mem⟩
  | link kind head filter clauses is_head is_filter is_clauses =>
      have not_condition : kind ≠ .condition ∧ kind ≠ .linkCondition := by
        obtain rfl | rfl := is_clauses.kind_eq <;> decide
      cases is_clauses with
      | dateFirst date mode is_date is_mode =>
          have front_lacks := fun tree mem =>
            (front_kinds (.inr rfl) (.inr rfl) is_head is_filter is_date tree mem).2
          have same := dateFirstAmong_dateFirst front_lacks is_mode
          rw [List.append_assoc] at same
          rw [Tree.dateFirst, same]
          exact ⟨.link kind head filter date mode is_head is_filter is_date is_mode, rfl, rfl,
            fun _ mem => mem⟩
      | modeFirst mode date is_mode is_date =>
          have front_lacks := fun tree mem =>
            (front_kinds (.inr rfl) (.inr rfl) is_head is_filter is_date tree mem).2
          rw [Tree.dateFirst, dateFirstAmong_modeFirst front_lacks is_mode is_date]
          refine ⟨.link kind head filter date mode is_head is_filter is_date is_mode,
            readSelect?_modeFirst is_mode is_date, ?_, ?_⟩
          · rw [nesting_of_kind not_condition, nesting_of_kind not_condition]
            simp [Nat.max_comm]
          · intro token mem
            simp only [Tree.tokens_node, Tree.tokensAll_append, List.mem_append] at mem ⊢
            exact mem.imp_right Or.symm

/-- The tree of a query that has been read is a derivation tree over tokens of the text, and keeps
within the limit. -/
theorem derivation_of_parse {limit : Option Nat} {source : String} {reading : Reading} {root : Tree}
    (parse_eq : parse limit (tokenize source) = .ok reading) (root_eq : reading.root? = some root) :
    IsQuery root ∧ (∀ token ∈ root.tokens, IsLexed token) ∧
      ∀ bound ∈ limit, root.nesting ≤ bound := by
  obtain ⟨init, final, tokens_eq, is_list, all_lexed⟩ := exists_tokenize_eq source
  rw [tokens_eq] at parse_eq
  obtain ⟨behind, rfl, query_eq, -⟩ :=
    exists_query_of_parse is_list.final_kind parse_eq root_eq
  obtain ⟨is_query, -, shallow⟩ := derivation_of_query_ok is_list.final_kind query_eq
  refine ⟨is_query, fun token mem => all_lexed token (List.mem_append_left _ mem), ?_⟩
  rintro bound ⟨⟩
  exact shallow

theorem IsDateFirst.isQuery {tree : Tree} (is_query : IsDateFirst tree) : IsQuery tree := by
  cases is_query with
  | flat head filter date is_head is_filter is_date =>
      exact .flat head filter date is_head is_filter is_date
  | link kind head filter date mode is_head is_filter is_date is_mode =>
      exact .link kind head filter _ is_head is_filter (.dateFirst kind date mode is_date is_mode)

theorem IsDateFirst.alike {tree tree' : Tree} (is_query : IsDateFirst tree)
    (alike : Tree.Alike tree tree') : IsDateFirst tree' := by
  cases is_query with
  | flat head filter date is_head is_filter is_date =>
      obtain _ | ⟨children_alike⟩ := alike
      obtain ⟨head', filter', date', rfl, is_head', is_filter', date_alike⟩ :=
        exists_of_front_alike is_head is_filter children_alike
      exact .flat _ _ _ is_head' is_filter' (is_date.alike (fun _ _ => IsDate.alike) date_alike)
  | link kind head filter date mode is_head is_filter is_date is_mode =>
      obtain _ | ⟨children_alike⟩ := alike
      obtain ⟨head', filter', clauses, rfl, is_head', is_filter', clauses_alike⟩ :=
        exists_of_front_alike is_head is_filter children_alike
      obtain ⟨date', mode', rfl, date_alike, mode_alike⟩ := clauses_alike.exists_of_append
      exact .link _ _ _ _ _ is_head' is_filter'
        (is_date.alike (fun _ _ => IsDate.alike) date_alike) (is_mode.alike mode_alike)

/-- A tree whose date stands before its mode is read from its layout, whatever limit it keeps
within. -/
theorem IsDateFirst.exists_reading {tree : Tree} (is_query : IsDateFirst tree)
    (lexed : ∀ token ∈ tree.tokens, IsLexed token) {limit : Option Nat}
    (shallow : ∀ bound ∈ limit, tree.nesting ≤ bound) {text : String}
    (text_eq : text.toList = tree.layout) :
    ∃ tree', parse limit (tokenize text) = .ok ⟨tokenize text, some tree', []⟩ ∧
      IsDateFirst tree' ∧
      tree'.mapTokens Token.unplaced = tree.mapTokens fun token => token.canonical.unplaced := by
  obtain ⟨init, final, tokens_eq, is_list, all_lexed⟩ := exists_tokenize_eq text
  have scans := is_query.scans lexed
  rw [← text_eq] at scans
  have spellings : init.map Token.spelling = tree.tokens.map Token.canonicalSpelling := by
    obtain ⟨init', final', tokens_eq', -, spellings⟩ := scans.exists_tokenize_eq
    rw [tokens_eq] at tokens_eq'
    rw [(List.append_inj' tokens_eq' rfl).1, spellings]
  have kinds_eq : Tree.kindsOf init = Tree.kindsOf tree.tokens := by
    have kinds_eq := congrArg (List.map Prod.fst) spellings
    rwa [List.map_map, List.map_map] at kinds_eq
  obtain ⟨tree', alike, rfl⟩ := Tree.exists_alike tree kinds_eq
  have unplaced_eq : tree'.tokens.map Token.unplaced =
      tree.tokens.map fun token => token.canonical.unplaced := by
    have same : (tree'.tokens.map Token.spelling).map Token.ofSpelling =
        (tree.tokens.map Token.canonicalSpelling).map Token.ofSpelling := by rw [spellings]
    rw [List.map_map, List.map_map] at same
    calc
      tree'.tokens.map Token.unplaced = tree'.tokens.map (Token.ofSpelling ∘ Token.spelling) :=
        List.map_congr_left fun token mem => Token.unplaced_eq (all_lexed token mem).before_eq
      _ = tree.tokens.map (Token.ofSpelling ∘ Token.canonicalSpelling) := same
      _ = tree.tokens.map fun token => token.canonical.unplaced :=
        List.map_congr_left fun token mem =>
          (Token.canonical_unplaced_eq (lexed token mem).before_eq).symm
  have mapTokens_eq := alike.mapTokens_eq unplaced_eq
  refine ⟨tree', ?_, is_query.alike alike, mapTokens_eq⟩
  have same_nesting : tree'.nesting = tree.nesting := by
    have nesting_eq := congrArg Tree.nesting mapTokens_eq
    rwa [Tree.nesting_mapTokens Token.keepsKind_unplaced,
      Tree.nesting_mapTokens Token.keepsKind_canonical_unplaced] at nesting_eq
  rw [tokens_eq]
  exact parse_of_isQuery_within (is_query.alike alike).isQuery is_list.final_kind
    (same_nesting ▸ shallow)

end Grammar

/-! ## Reading the text -/

theorem format?_of_dateFirst {tree : Tree} {text : String} (is_query : Grammar.IsDateFirst tree)
    (text_eq : text.toList = tree.layout) : tree.format? = some (.ok text) := by
  obtain ⟨select, reads, select_text⟩ := is_query.reads
  have same : select.text = text := String.toList_inj.1 (select_text.trans text_eq.symm)
  rw [Tree.format?, reads, ← same]
  rfl

/-- The canonical text of a query that has been read is read as the query with its tokens in their
canonical spelling and its date before its mode, without any report and within the same limit.  So
it is its own canonical text. -/
theorem Query.format_round_trip {limit : Option Nat} {source : String} {query : Query} {root : Tree}
    (parse_eq : Query.parse limit source = .ok query) (root_eq : query.root? = some root) :
    ∃ text formatted root', root.format? = some (.ok text) ∧
      Query.parse limit text = .ok formatted ∧ formatted.isValid = true ∧
      formatted.diagnostics = [] ∧ formatted.root? = some root' ∧
      root'.mapTokens Token.unplaced =
        root.dateFirst.mapTokens (fun token => token.canonical.unplaced) ∧
      root'.format? = some (.ok text) := by
  cases reading_eq : Grammar.parse limit (tokenize source) with
  | error fault =>
      rw [Query.parse, reading_eq] at parse_eq
      cases parse_eq
  | ok reading =>
      rw [Query.parse, reading_eq] at parse_eq
      cases parse_eq
      obtain ⟨is_query, lexed, shallow⟩ := Grammar.derivation_of_parse reading_eq root_eq
      obtain ⟨is_dateFirst, select_eq, nesting_eq, subset⟩ := is_query.dateFirst
      obtain ⟨text, text_eq⟩ : ∃ text : String, text.toList = root.dateFirst.layout :=
        ⟨.ofList _, String.toList_ofList⟩
      have format_eq := format?_of_dateFirst is_dateFirst text_eq
      obtain ⟨root', reading'_eq, is_dateFirst', same⟩ := is_dateFirst.exists_reading
        (fun token mem => lexed token (subset token mem)) (nesting_eq ▸ shallow) text_eq
      have layout_eq : root'.layout = root.dateFirst.layout := by
        have layout_eq := congrArg Tree.layout same
        rwa [Tree.layout_mapTokens Token.keepsKind_unplaced Token.canonicalText_unplaced,
          Tree.layout_mapTokens Token.keepsKind_canonical_unplaced
            fun token => token.canonicalText_canonical] at layout_eq
      refine ⟨text, ⟨text, tokenize text, some root', [], []⟩, root', ?_, ?_, rfl, rfl, rfl, same, ?_⟩
      · rw [Tree.format?, ← select_eq]
        exact format_eq
      · rw [Query.parse, reading'_eq]
        rfl
      · exact format?_of_dateFirst is_dateFirst' (text_eq.trans layout_eq.symm)

/-- A query about links with its mode before its date, and a word behind it. -/
theorem Query.format_round_trip_recursive :
    ∃ query root text formatted,
      Query.parse (some 0) "select id from workitemlinks mode(recursive)asof'1'x" = .ok query ∧
      query.root? = some root ∧ query.isValid = false ∧ root.format? = some (.ok text) ∧
      Query.parse (some 0) text = .ok formatted ∧ formatted.isValid = true := by
  have is_read : ((Query.parse (some 0)
      "select id from workitemlinks mode(recursive)asof'1'x").toOption.any
        fun query => query.root?.isSome && !query.isValid) = true := by
    decide +kernel
  cases parse_eq : Query.parse (some 0) "select id from workitemlinks mode(recursive)asof'1'x" with
  | error fault =>
      rw [parse_eq] at is_read
      cases is_read
  | ok query =>
      rw [parse_eq] at is_read
      obtain ⟨has_root, not_valid⟩ := Bool.and_eq_true_iff.1 is_read
      obtain ⟨root, root_eq⟩ := Option.isSome_iff_exists.1 has_root
      obtain ⟨text, formatted, root', format_eq, formatted_eq, is_valid, -⟩ :=
        Query.format_round_trip parse_eq root_eq
      exact ⟨query, root, text, formatted, rfl, root_eq, by simpa using not_valid, format_eq,
        formatted_eq, is_valid⟩

end WorkItemQuery
