import WorkItemQuery.Proofs.Token.Scan
import WorkItemQuery.Proofs.Tree.Layout

/-!
# Trees that are written as their tokens

What is written is read back only if what follows it is of a sort: a name must stand apart from the
next word, any other word or literal must end, and behind an opening parenthesis anything may follow.
-/

namespace WorkItemQuery

open Lexer
open WorkItemQuery.Tree (layoutAll tokensAll tightNodes opening closing)

/-- The text is read as the tokens, wherever a text of some sort follows. -/
def Written (Follows : List Char → Prop) (text : List Char) (tokens : List Token) : Prop :=
  ∀ rest spellings, Follows rest → Scans rest spellings →
    Begins (text ++ rest) (tokens.map Token.canonicalSpelling ++ spellings)

/-- Whatever follows. -/
def Anything (_ : List Char) : Prop := True

namespace Written

variable {Before Behind : List Char → Prop} {text text' : List Char} {tokens tokens' : List Token}

/-- Whatever stands apart from a word ends it. -/
theorem of_ends (written : Written Ends text tokens) : Written Apart text tokens :=
  fun rest spellings apart => written rest spellings apart.1

theorem tight (first : Written Before text tokens) (second : Written Behind text' tokens')
    (follows : ∀ rest, Before (text' ++ rest)) :
    Written Behind (text ++ text') (tokens ++ tokens') := by
  intro rest spellings behind scans
  have second_begins := second rest spellings behind scans
  rw [List.append_assoc, List.map_append, List.append_assoc]
  exact first _ _ (follows rest) second_begins.scans

theorem spaced (first : Written Before text tokens) (second : Written Behind text' tokens')
    (follows : ∀ rest, Before (' ' :: (text' ++ rest))) :
    Written Behind (text ++ ' ' :: text') (tokens ++ tokens') := by
  intro rest spellings behind scans
  have second_begins := second rest spellings behind scans
  rw [List.append_assoc, List.map_append, List.append_assoc]
  exact first _ _ (follows rest) second_begins.blank

end Written

/-! ## Tokens -/

/-- The kinds of fixed text that are read from a text. -/
def fixedTexts : KindSet := ⟨fun kind => kind.canonicalText?.isSome && kind != .leftBracket⟩

section

variable {token : Token}

theorem exists_canonicalText (fixed : token.kind ∈ fixedTexts) :
    token.kind ≠ .leftBracket ∧ token.kind.canonicalText? = some token.canonicalText := by
  rw [KindSet.mem_iff_contains, fixedTexts, Bool.and_eq_true, bne_iff_ne,
    Option.isSome_iff_exists] at fixed
  obtain ⟨⟨text, text_eq⟩, not_bracket⟩ := fixed
  refine ⟨not_bracket, ?_⟩
  rw [Token.canonicalText, text_eq, Option.getD_some]

theorem startsFixed_token (fixed : token.kind ∈ fixedTexts) :
    StartsFixed token.canonicalText.toList :=
  ⟨token.kind, _, [], (exists_canonicalText fixed).2, (List.append_nil _).symm⟩

theorem apart_closing (is_closing : token.kind ∈ closing) (rest : List Char) :
    Apart (token.canonicalText.toList ++ rest) := by
  have all_fixed : ∀ kind ∈ closing, kind ∈ fixedTexts := by decide
  have marks : ∀ kind ∈ closing, ∀ text ∈ kind.canonicalText?,
      text.toList = [','] ∨ text.toList = [')'] := by
    decide
  have text_eq := (exists_canonicalText (all_fixed _ is_closing)).2
  obtain mark_eq | mark_eq := marks _ is_closing _ text_eq
  · rw [mark_eq]
    exact apart_mark (by decide) (by decide) rest
  · rw [mark_eq]
    exact apart_mark (by decide) (by decide) rest

theorem written_fixed (fixed : token.kind ∈ fixedTexts) :
    Written Ends token.canonicalText.toList [token] := by
  obtain ⟨not_bracket, text_eq⟩ := exists_canonicalText fixed
  intro rest spellings ends scans
  exact token.begins_fixed text_eq not_bracket ends scans

theorem written_selfClosing (closed : token.kind ∈ selfClosing) :
    Written Anything token.canonicalText.toList [token] := fun _ _ _ scans =>
  token.begins_selfClosing closed scans

theorem written_name (lexed : IsLexed token) (name : token.kind = .identifier) :
    Written Apart token.canonicalText.toList [token] := fun _ _ apart scans =>
  token.begins_name lexed name apart scans

theorem written_literal (lexed : IsLexed token)
    (literal : token.kind = .digits ∨ token.kind = .string ∨ token.kind = .variableRef) :
    Written Ends token.canonicalText.toList [token] := fun _ _ ends scans =>
  token.begins_literal lexed literal ends scans

end

/-! ## Children of nodes -/

/-- The layout of trees in a node is read as their tokens. -/
def WrittenAll (Follows : List Char → Prop) (parent : Kind) (trees : List Tree) : Prop :=
  Written Follows (layoutAll parent trees) (tokensAll trees)

theorem startsFixed_layoutAll {token : Token} (fixed : token.kind ∈ fixedTexts) (parent : Kind)
    (rest : List Tree) : StartsFixed (layoutAll parent (.leaf token :: rest)) :=
  (startsFixed_token fixed).append _

theorem ends_blank (rest : List Char) : Ends (' ' :: rest) := ends_cons (.head _) rest

namespace WrittenAll

variable {Before Behind : List Char → Prop} {parent : Kind} {tree next : Tree} {rest : List Tree}

theorem single (written : Written Behind tree.layout tree.tokens) :
    WrittenAll Behind parent [tree] := by
  rw [WrittenAll, Tree.layoutAll_single, Tree.tokensAll_cons, Tree.tokensAll_nil, List.append_nil]
  exact written

/-- A blank ends whatever needs no more than that. -/
theorem spaced (loose : parent ∉ tightNodes) (first : Written Ends tree.layout tree.tokens)
    (not_opening : tree.kind ∉ opening) (not_closing : next.kind ∉ closing)
    (second : WrittenAll Behind parent (next :: rest)) :
    WrittenAll Behind parent (tree :: next :: rest) := by
  rw [WrittenAll, Tree.layoutAll_spaced loose not_opening not_closing, Tree.tokensAll_cons]
  exact first.spaced second fun _ => ends_blank _

/-- What may end with a name stands before a word or mark of fixed text. -/
theorem apart (loose : parent ∉ tightNodes) (first : Written Apart tree.layout tree.tokens)
    (not_opening : tree.kind ∉ opening) (not_closing : next.kind ∉ closing)
    (starts : StartsFixed (layoutAll parent (next :: rest)))
    (second : WrittenAll Behind parent (next :: rest)) :
    WrittenAll Behind parent (tree :: next :: rest) := by
  rw [WrittenAll, Tree.layoutAll_spaced loose not_opening not_closing, Tree.tokensAll_cons]
  exact first.spaced second fun more => apart_blank (starts.append more)

/-- What closes stands right behind what is before it. -/
theorem append_closing {trees : List Tree} {token : Token} (not_nil : trees ≠ [])
    (first : WrittenAll Apart parent trees) (is_closing : token.kind ∈ closing)
    (second : WrittenAll Behind parent (.leaf token :: rest)) :
    WrittenAll Behind parent (trees ++ .leaf token :: rest) := by
  rw [WrittenAll, Tree.layoutAll_append_closing not_nil is_closing, Tree.tokensAll_append]
  refine first.tight second fun more => ?_
  rw [Tree.layoutAll, List.append_assoc]
  exact apart_closing is_closing _

theorem closing {token : Token} (first : Written Apart tree.layout tree.tokens)
    (is_closing : token.kind ∈ Tree.closing)
    (second : WrittenAll Behind parent (.leaf token :: rest)) :
    WrittenAll Behind parent (tree :: .leaf token :: rest) :=
  append_closing (List.cons_ne_nil tree []) (single first) is_closing second

theorem tight (tight : parent ∈ tightNodes ∨ tree.kind ∈ opening)
    (first : Written Anything tree.layout tree.tokens)
    (second : WrittenAll Behind parent (next :: rest)) :
    WrittenAll Behind parent (tree :: next :: rest) := by
  rw [WrittenAll, Tree.layoutAll_tight (tight.imp_right .inl), Tree.tokensAll_cons]
  exact Written.tight first second fun _ => trivial

end WrittenAll

end WorkItemQuery
