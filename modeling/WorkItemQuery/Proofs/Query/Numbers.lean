import Mathlib.Data.List.Induction
import Mathlib.Data.Nat.Digits.Defs
import WorkItemQuery.Proofs.Query.Reports
import WorkItemQuery.Proofs.Query.RoundTrip

/-!
# The numbers of a query

A number has the value that its digits write, with the minus before them, if this value fits into 64
bits.  Where a value has a sign, its term is what is written before the sign and its offset is the
number that is written behind it.
-/

namespace WorkItemQuery

/-! ## Decimal digits -/

namespace Text

variable {digits : List Char}

/-- The number that a decimal digit stands for. -/
def digitValue (digit : Char) : Nat := digit.toNat - '0'.toNat

/-- Digits are read as the sum of their numbers, each times its power of ten. -/
theorem digitsValue_eq_ofDigits (digits : List Char) :
    digitsValue digits = Nat.ofDigits 10 (digits.reverse.map digitValue) := by
  induction digits using List.reverseRecOn with
  | nil => rfl
  | append_singleton digits digit ih =>
      rw [digitsValue, List.foldl_append, ← digitsValue, ih, List.foldl_cons, List.foldl_nil,
        List.reverse_append, List.reverse_singleton, List.singleton_append, List.map_cons,
        Nat.ofDigits_cons, Nat.add_comm]
      rfl

theorem nat?_of_digits (not_nil : digits ≠ []) (all_digits : ∀ char ∈ digits, char.isDigit = true) :
    nat? digits = some (digitsValue digits) := by
  have not_empty : digits.isEmpty = false := List.isEmpty_eq_false_iff.2 not_nil
  have all_eq : digits.all Char.isDigit = true := List.all_eq_true.2 all_digits
  rw [nat?, not_empty, all_eq]
  rfl

theorem int64?_of_digits (not_nil : digits ≠ [])
    (all_digits : ∀ char ∈ digits, char.isDigit = true) :
    int64? digits =
      if fits64 (digitsValue digits) then some (digitsValue digits : Int) else none := by
  have no_minus : ∀ rest, digits ≠ '-' :: rest := by
    rintro rest rfl
    cases all_digits '-' (.head _)
  have no_plus : ∀ rest, digits ≠ '+' :: rest := by
    rintro rest rfl
    cases all_digits '+' (.head _)
  rw [int64?, nat?_of_digits not_nil all_digits]
  · rw [Option.map_some, Int.ofNat_eq_natCast, Option.bind_eq_bind, Option.bind_some]
  · exact no_minus
  · exact no_plus

theorem int64?_of_minus_digits (not_nil : digits ≠ [])
    (all_digits : ∀ char ∈ digits, char.isDigit = true) :
    int64? ('-' :: digits) =
      if fits64 (-digitsValue digits) then some (-digitsValue digits : Int) else none := by
  rw [int64?, nat?_of_digits not_nil all_digits]
  rfl

end Text

namespace Number

/-- The number is written in decimal digits. -/
def IsDecimal (number : Number) : Prop :=
  number.digits.text ≠ "" ∧ ∀ char ∈ number.digits.text.toList, char.isDigit = true

/-- The value that the digits write, apart from the minus. -/
def magnitude (number : Number) : Nat :=
  Nat.ofDigits 10 (number.digits.text.toList.reverse.map Text.digitValue)

/-- The value that is written. -/
def written (number : Number) : Int :=
  if number.minus?.isSome then -number.magnitude else number.magnitude

/-- The number has the value that is written exactly if this fits into 64 bits. -/
theorem IsDecimal.value?_eq {number : Number} (decimal : number.IsDecimal) :
    number.value? =
      if -2 ^ 63 ≤ number.written ∧ number.written ≤ 2 ^ 63 - 1 then some number.written
      else none := by
  obtain ⟨not_empty, all_digits⟩ := decimal
  have not_nil : number.digits.text.toList ≠ [] := mt String.toList_eq_nil_iff.1 not_empty
  have fits_iff : ∀ value : Int,
      Text.fits64 value = true ↔ -2 ^ 63 ≤ value ∧ value ≤ 2 ^ 63 - 1 := by
    intro value
    rw [Text.fits64, Bool.and_eq_true, decide_eq_true_iff, decide_eq_true_iff]
    omega
  have read_eq : number.value? =
      if Text.fits64 number.written then some number.written else none := by
    rw [value?, written, magnitude, ← Text.digitsValue_eq_ofDigits]
    split
    · exact Text.int64?_of_minus_digits not_nil all_digits
    · exact Text.int64?_of_digits not_nil all_digits
  rw [read_eq]
  exact if_congr (fits_iff _) rfl rfl

end Number

/-! ## Number nodes -/

/-- What is read from a number node is the number that is written in it. -/
structure SaysNumber (node : Tree) (number : Number) : Prop where
  /-- It is read from the node. -/
  reads : node.readNumber = .ok number
  /-- The node has its tokens and no others. -/
  children_eq : node.children = (number.minus?.toList ++ [number.digits]).map .leaf
  /-- What stands before the digits is a minus. -/
  minus_kind : ∀ minus ∈ number.minus?, minus.kind = .minus
  /-- The digits are decimal digits. -/
  decimal : number.digits.kind = .digits ∧ number.IsDecimal
  /-- It has the value that is written exactly if this fits into 64 bits. -/
  value?_eq : number.value? =
    if -2 ^ 63 ≤ number.written ∧ number.written ≤ 2 ^ 63 - 1 then some number.written else none
  /-- The least value fits, but only with its minus. -/
  limit_iff : number.magnitude = 2 ^ 63 → (number.value?.isSome ↔ number.minus?.isSome)

/-- Around the operator of a value node stand its term and the number of its offset. -/
structure SaysOffset (node : Tree) (front : List Tree) (sign : Token) (back : List Tree)
    (value : Value) : Prop where
  /-- It is read from the node. -/
  reads : node.readValue = .ok value
  /-- Its term is what is written before the operator. -/
  term_eq : ∃ term, front = [term] ∧ term.readTerm? = some (.ok value.term)
  /-- Its offset is the number that is written behind the operator. -/
  offset_eq : ∃ offset number, back = [offset] ∧ offset.kind = .number ∧
    offset.readNumber = .ok number ∧ node.offsetNumber? = some offset ∧
    value.offset? = some (sign, number)

/-- Every number of a tree is the one that is written, and so are the term and the number around
every operator of a value. -/
structure HasExactNumbers (root : Tree) : Prop where
  /-- A number node is read as what it writes. -/
  numbers : ∀ node ∈ root.descendants, node.kind = .number → ∃ number, SaysNumber node number
  /-- The operator of a value is read with what stands before and behind it. -/
  offsets : ∀ node ∈ root.descendants, node.kind = .value → ∀ front sign back,
    node.children = front ++ .leaf sign :: back → sign.kind ∈ KindSet.plusMinus →
    ∃ value, SaysOffset node front sign back value

namespace Grammar

variable {node : Tree}

/-- The digits of a text are decimal digits. -/
theorem isDecimal_of_isLexed {number : Number} (digits_kind : number.digits.kind = .digits)
    (lexed : IsLexed number.digits) : number.IsDecimal := by
  have kind_eq := lexed.kind_eq.resolve_left (by rw [digits_kind]; nofun)
  rw [digits_kind] at kind_eq
  have accepts := Lexer.matches_of_kindOf? Rule.digits_mem kind_eq
  refine ⟨?_, fun char mem => ?_⟩
  · intro is_empty
    obtain ⟨_, rest, text_eq, ⟨first, rfl, -⟩, -⟩ := accepts
    rw [is_empty] at text_eq
    cases text_eq
  · simpa [Pattern.oneOrMore, Pattern.uses] using Pattern.uses_of_matches accepts mem

theorem isSome_value?_iff_of_limit {number : Number} (decimal : number.IsDecimal)
    (limit_eq : number.magnitude = 2 ^ 63) : number.value?.isSome ↔ number.minus?.isSome := by
  rw [decimal.value?_eq, Number.written, limit_eq]
  cases number.minus?.isSome <;> decide

theorem IsNumber.exists_saysNumber (is_number : IsNumber node)
    (lexed : ∀ token ∈ node.tokens, IsLexed token) : ∃ number, SaysNumber node number := by
  cases is_number with
  | plain digits digits_kind =>
      have decimal : (Number.mk none digits).IsDecimal :=
        isDecimal_of_isLexed digits_kind (lexed digits (by simp))
      exact ⟨⟨none, digits⟩, readNumber_plain digits_kind, rfl, nofun, ⟨digits_kind, decimal⟩,
        decimal.value?_eq, isSome_value?_iff_of_limit decimal⟩
  | negative minus digits minus_kind digits_kind =>
      have decimal : (Number.mk (some minus) digits).IsDecimal :=
        isDecimal_of_isLexed digits_kind (lexed digits (by simp))
      refine ⟨⟨some minus, digits⟩, readNumber_negative minus_kind digits_kind, rfl, ?_,
        ⟨digits_kind, decimal⟩, decimal.value?_eq, isSome_value?_iff_of_limit decimal⟩
      rintro _ ⟨⟩
      exact minus_kind

/-- An operator among the children of a value stands between its term and a number. -/
theorem IsValue.exists_of_sign (is_value : IsValue node) {front back : List Tree} {sign : Token}
    (children_eq : node.children = front ++ .leaf sign :: back)
    (sign_mem : sign.kind ∈ KindSet.plusMinus) :
    ∃ term offset, front = [term] ∧ back = [offset] ∧ IsTerm term ∧ IsNumber offset ∧
      node = .node .value [term, .leaf sign, offset] := by
  have not_term : ∀ {term : Tree}, IsTerm term → term ≠ .leaf sign := by
    rintro _ is_term rfl
    exact is_term.mem_valueKinds.2 sign_mem
  have behind_term : ∀ {term : Tree} {rest : List Tree}, IsTerm term →
      term :: rest = front ++ .leaf sign :: back →
      ∃ more, front = term :: more ∧ rest = more ++ .leaf sign :: back := by
    intro term rest is_term same
    refine (List.cons_eq_append_iff.1 same).resolve_left fun ⟨_, first_eq⟩ => ?_
    exact not_term is_term (List.cons.inj first_eq).1.symm
  cases is_value with
  | plain term is_term =>
      obtain ⟨more, -, nil_eq⟩ := behind_term is_term children_eq
      exact absurd nil_eq.symm (List.append_ne_nil_of_right_ne_nil more nofun)
  | shifted term other offset is_term other_mem is_number =>
      obtain ⟨more, rfl, rest_eq⟩ := behind_term is_term children_eq
      obtain ⟨rfl, sign_eq⟩ | ⟨last, -, offset_eq⟩ := List.cons_eq_append_iff.1 rest_eq
      · obtain ⟨leaf_eq, rfl⟩ := List.cons.inj sign_eq
        rw [leaf_eq]
        exact ⟨term, offset, rfl, rfl, is_term, is_number, rfl⟩
      · have mem : Tree.leaf sign ∈ [offset] := by
          rw [offset_eq]
          exact List.mem_append_right _ (.head _)
        rw [← List.mem_singleton.1 mem] at is_number
        cases is_number

theorem IsValue.exists_saysOffset (is_value : IsValue node) {front back : List Tree} {sign : Token}
    (children_eq : node.children = front ++ .leaf sign :: back)
    (sign_mem : sign.kind ∈ KindSet.plusMinus) :
    ∃ value, SaysOffset node front sign back value := by
  obtain ⟨term, offset, rfl, rfl, is_term, is_number, rfl⟩ :=
    is_value.exists_of_sign children_eq sign_mem
  obtain ⟨read, reads, -⟩ := is_term.reads
  obtain ⟨number, reads_number, -⟩ := is_number.reads
  exact ⟨⟨read, some (sign, number)⟩,
    readValue_shifted is_term sign_mem is_number reads reads_number, ⟨term, rfl, reads⟩,
    ⟨offset, number, rfl, is_number.kind_eq, reads_number,
      offsetNumber?_shifted is_term sign_mem is_number, rfl⟩⟩

end Grammar

namespace Query

/-- In the tree of a query every number has the value that is written, as far as this fits into 64
bits, and every operator of a value has the term before it and the number behind it. -/
theorem numbers_exact {limit : Option Nat} {source : String} {query : Query} {root : Tree}
    (parse_eq : parse limit source = .ok query) (root_eq : query.root? = some root) :
    HasExactNumbers root := by
  obtain ⟨reading, reading_eq, rfl⟩ := exists_reading parse_eq
  obtain ⟨is_query, lexed, -⟩ := Grammar.derivation_of_parse reading_eq root_eq
  have order_eq := Tree.descendants_eq_preOrder root
  have rules : ∀ node ∈ root.preOrder, (node.kind = .number → Grammar.IsNumber node) ∧
      (node.kind = .value → Grammar.IsValue node) := by
    intro node mem
    have is_node := Tree.node?_of_mem_preOrder mem
    obtain is_part | ⟨token, rfl⟩ := is_query.isPart_of_mem node mem
    · exact (is_part.rule_of_kind is_node).2
    · cases is_node
  constructor <;> rw [order_eq]
  · exact fun node mem kind_eq => ((rules node mem).1 kind_eq).exists_saysNumber
      fun token token_mem => lexed token ((Tree.tokens_infix mem).subset token_mem)
  · exact fun node mem kind_eq front sign back children_eq sign_mem =>
      ((rules node mem).2 kind_eq).exists_saysOffset children_eq sign_mem

/-- The least value with its minus behind an operator, and the same digits without one before it. -/
theorem numbers_exact_least :
    ∃ query root, parse none
        "select a from workitems where a = 9223372036854775808 - -9223372036854775808" = .ok query ∧
      query.root? = some root ∧
      (root.preOrder.filter (·.kind == .number)).map
          (fun node => node.readNumber.toOption.bind Number.value?) = [none, some (-2 ^ 63)] ∧
      HasExactNumbers root := by
  have is_read : ((parse none
      "select a from workitems where a = 9223372036854775808 - -9223372036854775808").toOption.any
      fun query => query.root?.any fun root =>
        (root.preOrder.filter (·.kind == .number)).map
          (fun node => node.readNumber.toOption.bind Number.value?) == [none, some (-2 ^ 63)]) =
      true := by
    decide +kernel
  cases parse_eq : parse none
      "select a from workitems where a = 9223372036854775808 - -9223372036854775808" with
  | error fault =>
      rw [parse_eq] at is_read
      cases is_read
  | ok query =>
      rw [parse_eq] at is_read
      obtain ⟨root, root_eq, values_eq⟩ := (Option.any_eq_true _ query.root?).1 is_read
      exact ⟨query, root, rfl, root_eq, beq_iff_eq.1 values_eq, numbers_exact parse_eq root_eq⟩

end Query
end WorkItemQuery
