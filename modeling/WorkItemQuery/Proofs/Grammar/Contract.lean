import WorkItemQuery.Proofs.Grammar.Stops
import WorkItemQuery.Proofs.Steps

/-!
# What a production answers

A production either takes a word of its language, or stops behind a word that some word of its
language goes on from.  The answer depends on the tokens that are taken and on the kind of the next
one only: it is the same whatever follows.  The rules below carry this contract from the parts of a
production to the whole.

A production is compared with deeper ones, which allow as many nested parentheses or more.  The
contract holds for token lists below a bound on their length, so that the allowed depth is never
used up.
-/

namespace WorkItemQuery
namespace Grammar

section

variable {α β : Type} {first : Production α} {next : α → Production β} {tokens : List Token}

theorem bind_apply (first : Production α) (next : α → Production β) (tokens : List Token) :
    (first >>= next) tokens = first tokens >>= fun answer => next answer.1 answer.2 := rfl

theorem bind_of_ok {value : α} {rest : List Token} (first_eq : first tokens = .ok (value, rest)) :
    (first >>= next) tokens = next value rest := by
  rw [bind_apply, first_eq]
  rfl

theorem exists_of_bind_ok {answer : β × List Token}
    (bind_eq : (first >>= next) tokens = .ok answer) :
    ∃ value rest, first tokens = .ok (value, rest) ∧ next value rest = .ok answer := by
  cases first_eq : first tokens with
  | error stop =>
      rw [bind_apply, first_eq] at bind_eq
      cases bind_eq
  | ok given =>
      rw [bind_of_ok first_eq] at bind_eq
      exact ⟨given.1, given.2, rfl, bind_eq⟩

theorem bind_of_error {stop : Stop} (first_eq : first tokens = .error stop) :
    (first >>= next) tokens = .error stop := by
  rw [bind_apply, first_eq]
  rfl

end

/-- The answer of a production that has taken some tokens before, together with the answers of
deeper productions where the same tokens are taken and a token of the same kind follows. -/
inductive Outcome {α : Type} (ctx : Context) (before tokens : List Token)
    (word : α → List Token → Prop) (deeper : Nat → Production α) :
    Except Stop (α × List Token) → Prop where
  | taken (value : α) (taken rest : List Token) : tokens = taken ++ rest →
      word value (before ++ taken) →
      (∀ extra rest', nextKind rest' = nextKind rest →
        deeper extra (taken ++ rest') = .ok (value, rest')) →
      Outcome ctx before tokens word deeper (.ok (value, rest))
  | stopped (stop : Stop) (taken rest : List Token) : tokens = taken ++ rest →
      Stops ctx (before ++ taken) rest stop →
      (∃ value more, word value (before ++ taken ++ more)) →
      (∀ extra rest', nextKind rest' = nextKind rest →
        ∃ stop', stop' ≠ .fault .stalled ∧ deeper extra (taken ++ rest') = .error stop') →
      Outcome ctx before tokens word deeper (.error stop)

/-- The contract of a production: behind the tokens taken before, it takes what completes a word. -/
def Reads {α : Type} (ctx : Context) (bound : Nat) (before : List Token)
    (production : Production α) (deeper : Nat → Production α) (word : α → List Token → Prop) :
    Prop :=
  ∀ tokens, tokens.length < bound →
    Outcome ctx before tokens word deeper (production tokens)

variable {α β : Type} {ctx : Context} {bound : Nat} {before : List Token}

namespace Outcome

variable {tokens : List Token} {word : α → List Token → Prop} {deeper deeper' : Nat → Production α}
  {answer : Except Stop (α × List Token)}

theorem imp {wider : α → List Token → Prop} (outcome : Outcome ctx before tokens word deeper answer)
    (widen : ∀ value taken, word value taken → wider value taken) :
    Outcome ctx before tokens wider deeper answer := by
  cases outcome with
  | taken value taken rest tokens_eq holds again =>
      exact .taken value taken rest tokens_eq (widen _ _ holds) again
  | stopped stop taken rest tokens_eq stops completes again =>
      obtain ⟨value, more, holds⟩ := completes
      exact .stopped stop taken rest tokens_eq stops ⟨value, more, widen _ _ holds⟩ again

/-- What has been taken may be handed on in another form. -/
theorem map {wider : β → List Token → Prop} (outcome : Outcome ctx before tokens word deeper answer)
    (hand : α → β) (widen : ∀ value taken, word value taken → wider (hand value) taken) :
    Outcome ctx before tokens wider
      (fun extra tokens => (deeper extra tokens).map fun answer => (hand answer.1, answer.2))
      (answer.map fun answer => (hand answer.1, answer.2)) := by
  cases outcome with
  | taken value taken rest tokens_eq holds again =>
      refine .taken (hand value) taken rest tokens_eq (widen _ _ holds) fun extra rest' same => ?_
      rw [again extra rest' same]
      rfl
  | stopped stop taken rest tokens_eq stops completes again =>
      obtain ⟨value, more, holds⟩ := completes
      refine .stopped stop taken rest tokens_eq stops ⟨hand value, more, widen _ _ holds⟩
        fun extra rest' same => ?_
      obtain ⟨stop', not_stalled, deeper_eq⟩ := again extra rest' same
      exact ⟨stop', not_stalled, by rw [deeper_eq]; rfl⟩

/-- An answer from the start of a word is also one behind other tokens. -/
theorem frame (outcome : Outcome ctx [] tokens word deeper answer) (before : List Token) :
    Outcome ctx before tokens (fun value total => ∃ taken, total = before ++ taken ∧ word value taken)
      deeper answer := by
  cases outcome with
  | taken value taken rest tokens_eq holds again =>
      exact .taken value taken rest tokens_eq ⟨taken, rfl, holds⟩ again
  | stopped stop taken rest tokens_eq stops completes again =>
      obtain ⟨value, more, holds⟩ := completes
      exact .stopped stop taken rest tokens_eq (stops.append_left before)
        ⟨value, more, taken ++ more, List.append_assoc .., holds⟩ again

/-- An answer behind some tokens is one for all tokens, if the deeper productions go on behind the
same tokens in the same way. -/
theorem append_left {front rest : List Token}
    (outcome : Outcome ctx (before ++ front) rest word deeper answer)
    (go_on : ∀ extra rest', nextKind rest' = nextKind rest →
      deeper extra rest' ≠ .error (.fault .stalled) →
        deeper' extra (front ++ rest') = deeper extra rest') :
    Outcome ctx before (front ++ rest) word deeper' answer := by
  cases outcome with
  | taken value taken rest' rest_eq holds again =>
      refine .taken value (front ++ taken) rest' ?_ ?_ fun extra rest'' same => ?_
      · rw [rest_eq, List.append_assoc]
      · rwa [← List.append_assoc]
      · have deeper_eq := again extra rest'' same
        rw [List.append_assoc, go_on extra _ (rest_eq ▸ nextKind_append_congr taken same)
          (deeper_eq ▸ nofun), deeper_eq]
  | stopped stop taken rest' rest_eq stops completes again =>
      refine .stopped stop (front ++ taken) rest' ?_ ?_ ?_ fun extra rest'' same => ?_
      · rw [rest_eq, List.append_assoc]
      · rwa [← List.append_assoc]
      · rwa [← List.append_assoc]
      · obtain ⟨stop', not_stalled, deeper_eq⟩ := again extra rest'' same
        refine ⟨stop', not_stalled, ?_⟩
        rw [List.append_assoc, go_on extra _ (rest_eq ▸ nextKind_append_congr taken same)
          (by simpa [deeper_eq] using not_stalled), deeper_eq]

/-- Deeper productions that answer alike may stand for each other. -/
theorem congr (outcome : Outcome ctx before tokens word deeper answer)
    (alike : ∀ extra rest', nextKind rest' = nextKind tokens →
      deeper' extra rest' = deeper extra rest') :
    Outcome ctx before tokens word deeper' answer := by
  rw [← List.append_nil before] at outcome
  exact outcome.append_left fun extra rest' same _ => alike extra rest' same

end Outcome

namespace Reads

/-- What is answered is a word behind the tokens taken before. -/
theorem of_ok {production : Production α} {deeper : Nat → Production α}
    {word : α → List Token → Prop} (reads : Reads ctx bound before production deeper word)
    {tokens rest : List Token} {value : α} (short : tokens.length < bound)
    (answer_eq : production tokens = .ok (value, rest)) :
    ∃ taken, tokens = taken ++ rest ∧ word value (before ++ taken) := by
  have outcome := reads tokens short
  rw [answer_eq] at outcome
  cases outcome with
  | taken value taken rest tokens_eq holds again => exact ⟨taken, tokens_eq, holds⟩

/-- What has been taken before can be completed to a word. -/
theorem completable {production : Production α} {deeper : Nat → Production α}
    {word : α → List Token → Prop}
    (reads : Reads ctx bound before production deeper word) (positive : 0 < bound) :
    ∃ value more, word value (before ++ more) := by
  have outcome := reads [] positive
  generalize production [] = answer at outcome
  cases outcome with
  | taken value taken rest nil_eq holds again => exact ⟨value, taken, holds⟩
  | stopped stop taken rest nil_eq stops completes again =>
      obtain ⟨value, more, holds⟩ := completes
      exact ⟨value, taken ++ more, by rwa [← List.append_assoc]⟩

theorem mono {production : Production α} {deeper : Nat → Production α}
    {word : α → List Token → Prop} {smaller : Nat}
    (reads : Reads ctx bound before production deeper word) (le : smaller ≤ bound) :
    Reads ctx smaller before production deeper word := fun tokens short =>
  reads tokens (Nat.lt_of_lt_of_le short le)

theorem imp {production : Production α} {deeper : Nat → Production α}
    {word wider : α → List Token → Prop}
    (reads : Reads ctx bound before production deeper word)
    (widen : ∀ value taken, word value taken → wider value taken) :
    Reads ctx bound before production deeper wider := fun tokens short =>
  (reads tokens short).imp widen

/-- A production that starts a word also goes on behind other tokens. -/
theorem frame {production : Production α} {deeper : Nat → Production α}
    {word : α → List Token → Prop}
    (reads : Reads ctx bound [] production deeper word) (before : List Token) :
    Reads ctx bound before production deeper fun value total =>
      ∃ taken, total = before ++ taken ∧ word value taken := fun tokens short =>
  (reads tokens short).frame before

theorem pure {word : α → List Token → Prop} {value : α} (holds : word value before) :
    Reads ctx bound before (pure value) (fun _ => pure value) word := by
  intro tokens _
  exact .taken value [] tokens rfl (by rwa [List.append_nil]) fun _ rest' _ => rfl

theorem haltWith {word : α → List Token → Prop} {stop : List Token → Stop}
    (stops : ∀ rest, Stops ctx before rest (stop rest))
    (completes : ∃ value more, word value (before ++ more)) :
    Reads ctx bound before (haltWith stop) (fun _ => haltWith stop) word := by
  intro tokens _
  obtain ⟨value, more, holds⟩ := completes
  refine .stopped _ [] tokens rfl (by rw [List.append_nil]; exact stops tokens) ?_ ?_
  · exact ⟨value, more, by rwa [List.append_nil]⟩
  · exact fun _ rest' _ => ⟨stop rest', (stops rest').ne_stalled, rfl⟩

theorem halt {word : α → List Token → Prop} {problem : Problem} (closed : ctx.Closed)
    (completes : ∃ value more, word value (before ++ more)) :
    Reads ctx bound before (halt ctx problem) (fun _ => Grammar.halt ctx problem) word :=
  haltWith (fun rest => closed.stops_stopAt before rest ..) completes

/-- One production after another, where the second goes on from what the first has taken. -/
theorem bind {first : Production α} {first' : Nat → Production α} {next : α → Production β}
    {next' : Nat → α → Production β}
    {firstWord : α → List Token → Prop} {word : β → List Token → Prop}
    (reads_first : Reads ctx bound before first first' firstWord)
    (reads_next : ∀ value total, firstWord value total →
      Reads ctx bound total (next value) (fun extra => next' extra value) word) :
    Reads ctx bound before (first >>= next) (fun extra => first' extra >>= next' extra) word := by
  intro tokens short
  have outcome := reads_first tokens short
  generalize first_eq : first tokens = answer at outcome
  cases outcome with
  | stopped stop taken rest tokens_eq stops completes again =>
      rw [bind_of_error first_eq]
      obtain ⟨value, more, holds⟩ := completes
      obtain ⟨value', more', holds'⟩ :=
        (reads_next value _ holds).completable (Nat.zero_lt_of_lt short)
      refine .stopped stop taken rest tokens_eq stops ⟨value', more ++ more', ?_⟩ ?_
      · rwa [← List.append_assoc]
      · intro extra rest' same
        obtain ⟨stop', not_stalled, deeper_eq⟩ := again extra rest' same
        exact ⟨stop', not_stalled, bind_of_error deeper_eq⟩
  | taken value taken rest tokens_eq holds again =>
      rw [bind_of_ok first_eq]
      rw [tokens_eq, List.length_append] at short
      rw [tokens_eq]
      exact (reads_next value _ holds rest (by omega)).append_left
        fun extra rest' same _ => bind_of_ok (again extra rest' same)

/-- The rule for a part whose contract is known from the start of its own word. -/
theorem step {first : Production α} {first' : Nat → Production α} {next : α → Production β}
    {next' : Nat → α → Production β}
    {firstWord : α → List Token → Prop} {word : β → List Token → Prop}
    (reads_first : Reads ctx bound [] first first' firstWord)
    (reads_next : ∀ value taken, firstWord value taken →
      Reads ctx bound (before ++ taken) (next value) (fun extra => next' extra value) word) :
    Reads ctx bound before (first >>= next) (fun extra => first' extra >>= next' extra) word := by
  refine (reads_first.frame before).bind ?_
  rintro value total ⟨taken, rfl, holds⟩
  exact reads_next value taken holds

end Reads
end Grammar
end WorkItemQuery
