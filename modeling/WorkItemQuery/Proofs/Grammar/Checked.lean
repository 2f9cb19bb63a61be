import WorkItemQuery.Grammar.Checked
import WorkItemQuery.Proofs.Grammar.Rules

/-!
# Checked steps and productions

A checked run follows a production if it answers as the production does, raises no alarm, and makes
no more looks at tokens than a bound says.  Where the production stops, the run has reported what
the stop says, and nothing else.  The rules below carry this from the parts of a run to the whole.
What is known of the tokens that are left, such as the kind of the next one after a look at it, is
kept as a condition of the rule.
-/

namespace WorkItemQuery
namespace Grammar

open Checked (Cursor Source Run Break Alarm fullLooks)

variable {α β : Type}

/-! ## Standing in front of tokens -/

/-- The last token of the source is an end mark. -/
def Checked.Source.Sealed (source : Source) : Prop :=
  ∃ init final, source.tokens = init ++ [final] ∧ final.kind = .endMark

/-- The cursor stands at a depth in front of the tokens that are left.  At least as many tokens have
been taken as the depth and the floor say. -/
structure Stands (source : Source) (floor depth : Nat) (cursor : Cursor) (rest : List Token) :
    Prop where
  /-- The tokens that are left. -/
  rest_eq : source.tokens.drop cursor.position = rest
  /-- The position is one of the list. -/
  position_le : cursor.position ≤ source.tokens.length
  /-- The depth. -/
  depth_eq : cursor.depth = depth
  /-- Tokens have been taken. -/
  floor_le : depth + floor ≤ cursor.position
  /-- The count of looks is never more than full. -/
  looks_le : cursor.looks ≤ fullLooks
  /-- Only mistakes in the text itself have been reported. -/
  reports_eq : cursor.reports = source.start.reports
  /-- Nothing has been reported that does not fit. -/
  unreported : cursor.reported? = none
  /-- Nothing has gone wrong. -/
  faultless : cursor.fault? = none

section

variable {source : Source} {floor depth : Nat} {cursor : Cursor} {token : Token} {rest : List Token}

theorem Stands.lower (stands : Stands source (floor + 1) depth cursor rest) :
    Stands source floor depth cursor rest :=
  { stands with floor_le := Nat.le_trans (Nat.le_succ _) stands.floor_le }

theorem Checked.Source.Sealed.context_closed (seals : source.Sealed) :
    source.context.Closed := by
  obtain ⟨init, final, tokens_eq, final_kind⟩ := seals
  simpa [Context.Closed, Checked.Source.context, tokens_eq] using final_kind

theorem Stands.length_eq (stands : Stands source floor depth cursor rest) :
    source.tokens.length - cursor.position = rest.length := by
  rw [← stands.rest_eq, List.length_drop]

theorem Stands.getElem?_eq (stands : Stands source floor depth cursor rest) (count : Nat) :
    source.tokens[cursor.position + count]? = rest[count]? := by
  rw [← stands.rest_eq, List.getElem?_drop]

theorem Stands.withLooks (stands : Stands source floor depth cursor rest) {looks : Nat}
    (looks_le : looks ≤ cursor.looks) :
    Stands source floor depth { cursor with looks := looks } rest :=
  { stands with looks_le := Nat.le_trans looks_le stands.looks_le }

/-- The cursor behind the next token. -/
def Checked.Cursor.taken (cursor : Cursor) : Cursor :=
  { cursor with position := cursor.position + 1, looks := fullLooks }

theorem Stands.taken (stands : Stands source floor depth cursor (token :: rest)) :
    Stands source (floor + 1) depth cursor.taken rest :=
  { stands with
    rest_eq := by
      have drop_eq := congrArg List.tail stands.rest_eq
      rwa [List.tail_drop] at drop_eq
    position_le := by
      have length_eq := stands.length_eq
      rw [List.length_cons] at length_eq
      exact Nat.lt_of_sub_eq_succ length_eq
    floor_le := Nat.succ_le_succ stands.floor_le
    looks_le := Nat.le_refl _ }

theorem stands_start (source : Source) : Stands source 0 0 source.start source.tokens :=
  ⟨rfl, Nat.zero_le _, rfl, Nat.le_refl _, Nat.le_refl _, rfl, rfl, rfl⟩

/-- The cursor one level deeper. -/
def Checked.Cursor.entered (cursor : Cursor) : Cursor :=
  { cursor with depth := cursor.depth + 1, looks := fullLooks }

theorem Stands.entered (stands : Stands source (floor + 1) depth cursor rest) :
    Stands source floor (depth + 1) cursor.entered rest :=
  { stands with
    depth_eq := congrArg (· + 1) stands.depth_eq
    floor_le := by rw [Nat.add_right_comm]; exact stands.floor_le
    looks_le := Nat.le_refl _ }

/-- The cursor one level higher. -/
def Checked.Cursor.left (cursor : Cursor) : Cursor :=
  { cursor with depth := cursor.depth - 1, looks := fullLooks }

theorem Stands.left (stands : Stands source floor (depth + 1) cursor rest) :
    Stands source (floor + 1) depth cursor.left rest :=
  { stands with
    depth_eq := congrArg (· - 1) stands.depth_eq
    floor_le := by rw [← Nat.add_assoc, Nat.add_right_comm]; exact stands.floor_le
    looks_le := Nat.le_refl _ }

end

section

variable {source : Source} {cursor after : Cursor} {first : Run α} {next : α → Run β}

theorem run_apply (first : Run α) (next : α → Run β) (cursor : Cursor) :
    (first >>= next) cursor = ExceptT.bindCont next (first cursor).1 (first cursor).2 := rfl

theorem run_of_ok {value : α} (first_eq : first cursor = (.ok value, after)) :
    (first >>= next) cursor = next value after := by
  rw [run_apply, first_eq]
  rfl

theorem get_apply (cursor : Cursor) : (get : Run Cursor) cursor = (.ok cursor, cursor) := rfl

/-! ## Looks -/

/-- The run only looks at tokens, no more often than a cost says, and answers a value of those that
are left. -/
def Looks (source : Source) (cost : Nat) (run : Run α) (value : List Token → α) : Prop :=
  ∀ floor depth cursor rest, Stands source floor depth cursor rest → cost ≤ cursor.looks →
    ∃ looks, cursor.looks ≤ looks + cost ∧ looks ≤ cursor.looks ∧
      run cursor = (.ok (value rest), { cursor with looks := looks })

namespace Looks

variable {cost total : Nat}

theorem pure (value : α) : Looks source cost (Pure.pure value) fun _ => value :=
  fun _ _ cursor _ _ _ => ⟨cursor.looks, Nat.le_add_right .., Nat.le_refl _, rfl⟩

theorem bind {value : List Token → α} (looks : Looks source cost first value)
    (value' : α → List Token → β)
    (le : cost ≤ total)
    (looks_next : ∀ answer, Looks source (total - cost) (next answer) (value' answer)) :
    Looks source total (first >>= next) fun rest => value' (value rest) rest := by
  intro floor depth cursor rest stands total_le
  obtain ⟨left, spent, left_le, first_eq⟩ :=
    looks floor depth cursor rest stands (Nat.le_trans le total_le)
  obtain ⟨left', spent', left_le', next_eq⟩ := looks_next (value rest) floor depth _ rest
    (stands.withLooks left_le) (by dsimp only; omega)
  refine ⟨left', by dsimp only at spent'; omega, Nat.le_trans left_le' left_le, ?_⟩
  rw [run_of_ok first_eq, next_eq]

end Looks

theorem looks_look : Looks source 1 Checked.look fun _ => () := by
  intro floor depth cursor rest _ looks_pos
  obtain ⟨left, looks_eq⟩ := Nat.exists_eq_succ_of_ne_zero (Nat.ne_of_gt looks_pos)
  refine ⟨left, by omega, by omega, ?_⟩
  rw [Checked.look, run_of_ok (get_apply cursor), looks_eq]
  rfl

theorem looks_currentToken (seals : source.Sealed) :
    Looks source 1 (Checked.currentToken source) source.context.current := by
  refine looks_look.bind (fun _ => source.context.current) (Nat.le_refl _) fun _ => ?_
  intro floor depth cursor rest stands _
  refine ⟨cursor.looks, Nat.le_refl _, Nat.le_refl _, ?_⟩
  have token_eq : source.tokens[min cursor.position (source.tokens.length - 1)]? =
      some (source.context.current rest) := by
    have rest_get := stands.getElem?_eq 0
    have length_eq := stands.length_eq
    cases rest with
    | cons token rest =>
        rw [List.length_cons] at length_eq
        rw [Nat.min_eq_left (by omega)]
        exact rest_get
    | nil =>
        obtain ⟨init, final, tokens_eq, -⟩ := seals
        rw [List.length_nil] at length_eq
        rw [Nat.min_eq_right (by omega), ← List.getLast?_eq_getElem?]
        simp [Checked.Source.context, Context.current, tokens_eq]
  change Checked.tokenAt source (min cursor.position (source.tokens.length - 1)) cursor = _
  rw [Checked.tokenAt, token_eq]
  rfl

theorem looks_current (seals : source.Sealed) :
    Looks source 1 (Checked.current source) nextKind := by
  have kind_eq : nextKind = fun rest => (source.context.current rest).kind :=
    funext fun rest => (seals.context_closed.current_kind rest).symm
  rw [kind_eq]
  exact (looks_currentToken seals).bind (fun token _ => token.kind) (Nat.le_refl _) fun token =>
    .pure token.kind

theorem looks_ahead (count : Nat) :
    Looks source 1 (Checked.ahead source count) fun rest => kindAt rest count := by
  refine looks_look.bind (fun _ rest => kindAt rest count) (Nat.le_refl _) fun _ => ?_
  intro floor depth cursor rest stands _
  refine ⟨cursor.looks, Nat.le_refl _, Nat.le_refl _, ?_⟩
  have kind_eq : kindAt rest count = (rest[count]?.map (·.kind)).getD .endMark := by
    rw [kindAt, ← List.head?_drop]
    cases rest.drop count <;> rfl
  dsimp only
  rw [kind_eq, ← stands.getElem?_eq, run_of_ok (get_apply cursor)]
  cases source.tokens[cursor.position + count]? <;> rfl

theorem looks_found (seals : source.Sealed) :
    Looks source 1 (Checked.found source) fun rest => (source.context.current rest).shown :=
  (looks_currentToken seals).bind (fun token _ => token.shown) (Nat.le_refl _) fun token =>
    .pure token.shown

/-- The next tokens are `IN`, but not `IN GROUP`, behind a number of others. -/
def isIn (rest : List Token) (count : Nat) : Bool :=
  kindAt rest count == .inKw && kindAt rest (count + 1) != .groupKw

theorem looks_startsIn (seals : source.Sealed) :
    Looks source 2 (Checked.startsIn source) fun rest => isIn rest 0 := by
  refine (looks_current seals).bind (fun kind rest => kind == .inKw && kindAt rest 1 != .groupKw)
    (by decide) ?_
  intro kind
  by_cases is_in : kind = .inKw
  · rw [if_pos is_in, is_in]
    exact (looks_ahead 1).bind (fun kind _ => kind != .groupKw) (Nat.le_refl _) fun kind => .pure _
  · rw [if_neg is_in, beq_eq_false_iff_ne.2 is_in]
    exact .pure false

theorem looks_startsNotIn (seals : source.Sealed) :
    Looks source 3 (Checked.startsNotIn source) fun rest =>
      nextKind rest == .notKw && isIn rest 1 := by
  refine (looks_current seals).bind (fun kind rest => kind == .notKw && isIn rest 1) (by decide) ?_
  intro kind
  by_cases is_not : kind = .notKw
  · rw [if_pos is_not, is_not]
    refine (looks_ahead 1).bind (fun kind rest => kind == .inKw && kindAt rest 2 != .groupKw)
      (by decide) ?_
    intro kind
    by_cases is_in : kind = .inKw
    · rw [if_pos is_in, is_in]
      exact (looks_ahead 2).bind (fun kind _ => kind != .groupKw) (Nat.le_refl _) fun kind =>
        .pure _
    · rw [if_neg is_in, beq_eq_false_iff_ne.2 is_in]
      exact .pure false
  · rw [if_neg is_not, beq_eq_false_iff_ne.2 is_not]
    exact .pure false

end

/-! ## Following a production -/

/-- A run breaks off for the reason that a production stops: this is what has been reported, or what
has gone wrong. -/
inductive BreaksOff (source : Source) : Stop → Break → Cursor → Prop where
  | report (diagnostic : Diagnostic) (cursor : Cursor) : cursor.fault? = none →
      cursor.reports = source.start.reports ++ [diagnostic] →
      BreaksOff source (.report diagnostic) .givenUp cursor
  | silent (cursor : Cursor) : cursor.fault? = none → cursor.reports = source.start.reports →
      BreaksOff source .silent .givenUp cursor
  | failed (fault : Fault) (cursor : Cursor) : cursor.fault? = some fault →
      BreaksOff source (.fault fault) .givenUp cursor
  | fault (fault : Fault) (cursor : Cursor) : BreaksOff source (.fault fault) (.fault fault) cursor

/-- A run and a production answer the same.  Where they answer a value, the cursor stands in front
of the tokens that are left, and looks are left. -/
inductive Simulates (source : Source) (floor depth left : Nat) :
    Except Break α × Cursor → Except Stop (α × List Token) → Prop where
  | answered (value : α) (cursor : Cursor) (rest : List Token) :
      Stands source floor depth cursor rest → left ≤ cursor.looks →
      Simulates source floor depth left (.ok value, cursor) (.ok (value, rest))
  | stopped (stop : Stop) (broken : Break) (cursor : Cursor) : BreaksOff source stop broken cursor →
      Simulates source floor depth left (.error broken, cursor) (.error stop)

/-- The run follows the production in front of tokens of which something is known, where at least so
many looks are left before and behind it.  It raises no alarm. -/
def Follows (source : Source) (floor depth : Nat) (known : List Token → Prop) (looks left : Nat)
    (run : Run α) (production : Production α) : Prop :=
  ∀ cursor rest, Stands source floor depth cursor rest → known rest → looks ≤ cursor.looks →
    Simulates source floor depth left (run cursor) (production rest)

section

variable {source : Source} {floor depth looks left : Nat} {known : List Token → Prop}

/-- Wherever nothing has been reported, the run breaks off for a reason. -/
def Breaks (source : Source) (stop : Stop) (run : Run α) : Prop :=
  ∀ floor depth cursor rest, Stands source floor depth cursor rest →
    ∃ broken after, run cursor = (.error broken, after) ∧ BreaksOff source stop broken after

theorem breaks_giveUp : Breaks source .silent (Checked.giveUp : Run α) :=
  fun _ _ cursor _ stands => ⟨_, _, rfl, .silent cursor stands.faultless stands.reports_eq⟩

theorem breaks_fail (fault : Fault) : Breaks source (.fault fault) (Checked.fail fault : Run α) := by
  intro floor depth cursor rest stands
  refine ⟨_, _, rfl, .failed fault _ ?_⟩
  change cursor.fault?.or (some fault) = some fault
  rw [stands.faultless]
  rfl

theorem breaks_fault (fault : Fault) :
    Breaks source (.fault fault) (throw (.fault fault) : Run α) :=
  fun _ _ cursor _ _ => ⟨_, _, rfl, .fault fault cursor⟩

/-- No report is held back: nothing has gone wrong, and there is none before it. -/
theorem report_of_stands {cursor : Cursor} {rest : List Token}
    (stands : Stands source floor depth cursor rest) (diagnostic : Diagnostic) :
    Checked.report diagnostic cursor = (.ok (), { cursor with
      reports := cursor.reports ++ [diagnostic], reported? := some diagnostic.span.start }) := by
  have is_news : Checked.isNews diagnostic.span.start cursor =
      (.ok true, { cursor with reported? := some diagnostic.span.start }) := by
    have news : ¬ (cursor.fault?.isSome ∨ cursor.reported? = some diagnostic.span.start) := by
      simp [stands.faultless, stands.unreported]
    rw [Checked.isNews, run_of_ok (get_apply cursor), if_neg news]
    rfl
  rw [Checked.report, run_of_ok is_news]
  rfl

theorem breaks_stopWith (diagnostic : Diagnostic) :
    Breaks source (.report diagnostic) (Checked.stopWith diagnostic : Run α) := by
  intro floor depth cursor rest stands
  refine ⟨_, _, run_of_ok (report_of_stands stands diagnostic), ?_⟩
  exact .report diagnostic _ stands.faultless (congrArg (· ++ [diagnostic]) stands.reports_eq)

theorem Simulates.lower {answer : Except Break α × Cursor}
    {answer' : Except Stop (α × List Token)}
    (simulates : Simulates source (floor + 1) depth left answer answer') :
    Simulates source floor depth left answer answer' := by
  cases simulates with
  | answered value cursor rest stands left_le =>
      exact .answered value cursor rest stands.lower left_le
  | stopped stop broken cursor breaks => exact .stopped stop broken cursor breaks

namespace Follows

section

variable {run first : Run α} {next : α → Run β} {production first' : Production α}
  {next' : α → Production β}

theorem pure (value : α) (le : left ≤ looks) :
    Follows source floor depth known looks left (Pure.pure value) (Pure.pure value) :=
  fun cursor rest stands _ enough => .answered value cursor rest stands (Nat.le_trans le enough)

/-- The run breaks off for the reason that the production stops. -/
theorem stop {stop : Stop} (breaks : Breaks source stop run)
    (stops : ∀ rest, known rest → production rest = .error stop) :
    Follows source floor depth known looks left run production := by
  intro cursor rest stands holds _
  obtain ⟨broken, after, run_eq, breaks_off⟩ := breaks floor depth cursor rest stands
  rw [run_eq, stops rest holds]
  exact .stopped stop broken after breaks_off

theorem node {kind : Kind} {children : List Tree} (le : left ≤ looks) :
    Follows source floor depth known looks left (Checked.node kind children)
      (liftM (Grammar.node kind children)) := by
  rw [Checked.node, Grammar.node]
  cases Tree.build kind children with
  | ok tree => exact pure tree le
  | error error => exact stop (breaks_fail (.malformed error)) fun _ _ => rfl

theorem congr {production' : Production α}
    (same : ∀ rest, known rest → production rest = production' rest)
    (follows : Follows source floor depth known looks left run production') :
    Follows source floor depth known looks left run production := by
  intro cursor rest stands holds enough
  rw [same rest holds]
  exact follows cursor rest stands holds enough

/-- There are never more looks than a full count. -/
theorem of_le_full (follows : looks ≤ fullLooks →
      Follows source floor depth known looks left run production) :
    Follows source floor depth known looks left run production :=
  fun cursor rest stands holds enough =>
    follows (Nat.le_trans enough stands.looks_le) cursor rest stands holds enough

theorem mono {looks' : Nat} (follows : Follows source floor depth known looks' left run production)
    (le : looks' ≤ looks) : Follows source floor depth known looks left run production :=
  fun cursor rest stands holds enough => follows cursor rest stands holds (Nat.le_trans le enough)

theorem weaken {left' : Nat} (follows : Follows source floor depth known looks left' run production)
    (le : left ≤ left') : Follows source floor depth known looks left run production := by
  intro cursor rest stands holds enough
  have answers := follows cursor rest stands holds enough
  generalize run cursor = answer, production rest = answer' at answers
  cases answers with
  | answered value cursor rest stands enough =>
      exact .answered value cursor rest stands (Nat.le_trans le enough)
  | stopped stop broken cursor breaks => exact .stopped stop broken cursor breaks

theorem bind {between : Nat}
    (follows : Follows source floor depth known looks between first first')
    (follows_next : ∀ value,
      Follows source floor depth (fun _ => True) between left (next value) (next' value)) :
    Follows source floor depth known looks left (first >>= next) (first' >>= next') := by
  intro cursor rest stands holds enough
  have answers := follows cursor rest stands holds enough
  rw [run_apply, bind_apply]
  generalize first cursor = answer, first' rest = answer' at answers
  cases answers with
  | answered value cursor rest stands enough =>
      exact follows_next value cursor rest stands trivial enough
  | stopped stop broken cursor breaks => exact .stopped stop broken cursor breaks

/-- What a look says is known of the tokens from then on. -/
theorem looking (cost : Nat) {value : List Token → α} {production : Production β}
    (looks_first : Looks source cost first value)
    (follows_next : ∀ answer, Follows source floor depth
      (fun rest => known rest ∧ value rest = answer) looks left (next answer) production) :
    Follows source floor depth known (looks + cost) left (first >>= next) production := by
  intro cursor rest stands holds enough
  obtain ⟨remain, spent, remain_le, first_eq⟩ :=
    looks_first floor depth cursor rest stands (Nat.le_trans (Nat.le_add_left ..) enough)
  rw [run_of_ok first_eq]
  exact follows_next _ _ rest (stands.withLooks remain_le) ⟨holds, rfl⟩
    (Nat.le_of_add_le_add_right (Nat.le_trans enough spent))

theorem peek {next : Kind → Run β} {next' : Kind → Production β} (seals : source.Sealed)
    (follows_next : ∀ kind, Follows source floor depth
      (fun rest => known rest ∧ nextKind rest = kind) looks left (next kind) (next' kind)) :
    Follows source floor depth known (looks + 1) left (Checked.current source >>= next)
      (Grammar.peek >>= next') :=
  looking 1 (looks_current seals) fun kind =>
    congr (fun _ holds => holds.2 ▸ rfl) (follows_next kind)

end

end Follows

theorem take_apply (seals : source.Sealed) {cursor : Cursor} {token : Token} {rest : List Token}
    (stands : Stands source floor depth cursor (token :: rest)) (not_end : token.kind ≠ .endMark)
    (looks_pos : 1 ≤ cursor.looks) : Checked.take source cursor = (.ok token, cursor.taken) := by
  obtain ⟨left, -, -, current_eq⟩ := looks_current seals floor depth cursor _ stands looks_pos
  have check_eq : Checked.checkNotEnd source cursor = (.ok (), { cursor with looks := left }) := by
    rw [Checked.checkNotEnd, run_of_ok current_eq, nextKind_cons, if_neg not_end]
    rfl
  let full : Cursor := { cursor with looks := fullLooks }
  have reset_eq : Checked.reset { cursor with looks := left } = (.ok (), full) := rfl
  have token_eq : Checked.tokenAt source full.position full = (.ok token, full) := by
    have token_eq : source.tokens[full.position]? = some token := stands.getElem?_eq 0
    rw [Checked.tokenAt, token_eq]
    rfl
  rw [Checked.take, run_of_ok check_eq, run_of_ok reset_eq, run_of_ok (get_apply full),
    run_of_ok token_eq]
  rfl

namespace Follows

/-- The next token is known not to be an end mark, so that it may be taken.  The count of looks
starts again. -/
theorem take {next : Token → Run β} {production : Production β} {next' : Token → Production β}
    (seals : source.Sealed) (not_end : ∀ rest, known rest → nextKind rest ≠ .endMark)
    (taken : ∀ token rest, known (token :: rest) → production (token :: rest) = next' token rest)
    (follows_next : ∀ token,
      Follows source (floor + 1) depth (fun rest => known (token :: rest)) fullLooks left
        (next token) (next' token)) :
    Follows source floor depth known (looks + 1) left (Checked.take source >>= next)
      production := by
  intro cursor rest stands holds enough
  obtain ⟨token, rest, rfl, -⟩ := exists_cons_of_nextKind (not_end rest holds)
  rw [taken token rest holds, run_of_ok (take_apply seals stands (not_end _ holds)
    (Nat.le_trans (Nat.le_add_left ..) enough))]
  exact (follows_next token _ rest stands.taken holds (Nat.le_refl _)).lower

theorem eatOneOf {kinds : KindSet} {next : Option Token → Run β}
    {next' : Option Token → Production β} (seals : source.Sealed) (not_end : .endMark ∉ kinds)
    (hit : ∀ token, token.kind ∈ kinds →
      Follows source (floor + 1) depth (fun rest => known (token :: rest)) fullLooks left
        (next (some token)) (next' (some token)))
    (miss : Follows source floor depth (fun rest => known rest ∧ nextKind rest ∉ kinds) (looks + 1)
      left (next none) (next' none)) :
    Follows source floor depth known (looks + 2) left (Checked.eatOneOf source kinds >>= next)
      (Grammar.eatOneOf kinds >>= next') := by
  intro cursor rest stands holds enough
  obtain ⟨remain, spent, remain_le, current_eq⟩ :=
    looks_current seals floor depth cursor rest stands (by omega)
  have stands' := stands.withLooks remain_le
  have enough' : looks + 1 ≤ remain := Nat.le_of_succ_le_succ (Nat.le_trans enough spent)
  by_cases mem : nextKind rest ∈ kinds
  · obtain ⟨token, rest, rfl, -⟩ := exists_cons_of_nextKind fun at_end => not_end (at_end ▸ mem)
    have eaten : Checked.eatOneOf source kinds cursor =
        (.ok (some token), { cursor with looks := remain }.taken) := by
      rw [Checked.eatOneOf, run_of_ok current_eq, if_pos mem, run_of_ok
        (take_apply seals stands' (fun at_end => not_end (at_end ▸ mem))
          (Nat.le_trans (Nat.le_add_left ..) enough'))]
      rfl
    rw [run_of_ok eaten, bind_of_ok (eatOneOf_cons mem rest)]
    exact (hit token mem _ rest stands'.taken holds (Nat.le_refl _)).lower
  · have passed : Checked.eatOneOf source kinds cursor =
        (.ok none, { cursor with looks := remain }) := by
      rw [Checked.eatOneOf, run_of_ok current_eq, if_neg mem]
      rfl
    rw [run_of_ok passed, bind_of_ok (eatOneOf_of_notMem mem)]
    exact miss _ rest stands' ⟨holds, mem⟩ enough'

theorem eat {kind : Kind} {next : Option Token → Run β} {next' : Option Token → Production β}
    (seals : source.Sealed) (not_end : kind ≠ .endMark)
    (hit : ∀ token, token.kind = kind →
      Follows source (floor + 1) depth (fun rest => known (token :: rest)) fullLooks left
        (next (some token)) (next' (some token)))
    (miss : Follows source floor depth (fun rest => known rest ∧ nextKind rest ≠ kind) (looks + 1)
      left (next none) (next' none)) :
    Follows source floor depth known (looks + 2) left (Checked.eat source kind >>= next)
      (Grammar.eat kind >>= next') := by
  refine eatOneOf seals (fun mem => not_end (KindSet.mem_single.1 mem).symm)
    (fun token mem => hit token (KindSet.mem_single.1 mem)) ?_
  simpa only [KindSet.mem_single] using miss

/-- The kind that is checked for is known. -/
theorem check {kind : Kind} {next : Unit → Run β} {production : Production β}
    (seals : source.Sealed) (known_kind : ∀ rest, known rest → nextKind rest = kind)
    (follows_next : Follows source floor depth known looks left (next ()) production) :
    Follows source floor depth known (looks + 1) left (Checked.check source kind >>= next)
      production := by
  intro cursor rest stands holds enough
  obtain ⟨remain, spent, remain_le, current_eq⟩ :=
    looks_current seals floor depth cursor rest stands (Nat.le_trans (Nat.le_add_left ..) enough)
  have check_eq : Checked.check source kind cursor = (.ok (), { cursor with looks := remain }) := by
    rw [Checked.check, run_of_ok current_eq, if_neg (not_not_intro (known_kind rest holds))]
    rfl
  rw [run_of_ok check_eq]
  exact follows_next _ rest (stands.withLooks remain_le) holds
    (Nat.le_of_add_le_add_right (Nat.le_trans enough spent))

end Follows

/-! ## Reports -/

theorem follows_haltAt (seals : source.Sealed) {problem : Problem} {expected detail : String} :
    Follows source floor depth known (looks + 2) left
      (Checked.haltAt source problem expected detail : Run α)
      (haltWith fun rest => source.context.stopAt rest problem expected detail) := by
  have current_kind := seals.context_closed.current_kind
  refine .looking 1 (looks_current seals) fun kind => ?_
  split
  · rename_i is_lexical
    refine .stop breaks_giveUp fun rest known => ?_
    rw [haltWith, Context.stopAt, if_pos (by rw [current_kind, known.2, is_lexical])]
  rename_i not_lexical
  split
  · rename_i at_end
    refine .stop (breaks_stopWith _) fun rest known => ?_
    rw [haltWith, Context.stopAt, if_neg (by rw [current_kind, known.2]; exact not_lexical),
      if_pos (by rw [current_kind, known.2, at_end])]
  · rename_i not_end
    refine .looking 1 (looks_currentToken seals) fun token => ?_
    refine .stop (breaks_stopWith _) fun rest known => ?_
    rw [haltWith, Context.stopAt, if_neg (by rw [current_kind, known.1.2]; exact not_lexical),
      if_neg (by rw [current_kind, known.1.2]; exact not_end), known.2]

theorem follows_halt (seals : source.Sealed) {problem : Problem} :
    Follows source floor depth known (looks + 3) left (Checked.halt source problem : Run α)
      (halt source.context problem) := by
  refine .looking 1 (looks_found seals) fun shown => ?_
  refine .congr (fun rest known => ?_) (follows_haltAt seals)
  rw [halt, haltWith, Context.stop, known.2]
  rfl

theorem follows_haltUnclosed (seals : source.Sealed) {opened : Span} :
    Follows source floor depth known (looks + 3) left (Checked.haltUnclosed source opened : Run α)
      (haltWith (source.context.stopUnclosed opened)) := by
  have current_kind := seals.context_closed.current_kind
  refine .looking 1 (looks_current seals) fun kind => ?_
  split
  · rename_i is_lexical
    refine .stop breaks_giveUp fun rest known => ?_
    rw [haltWith, Context.stopUnclosed, if_pos (by rw [current_kind, known.2, is_lexical])]
  rename_i not_lexical
  split
  · rename_i at_end
    cases span_eq : Span.between? opened.start source.context.endOffset with
    | none =>
      refine .stop (breaks_fault _) fun rest known => ?_
      rw [haltWith, Context.stopUnclosed,
        if_neg (by rw [current_kind, known.2]; exact not_lexical),
        if_pos (by rw [current_kind, known.2, at_end]), span_eq]
    | some span =>
      refine .stop (breaks_stopWith _) fun rest known => ?_
      rw [haltWith, Context.stopUnclosed,
        if_neg (by rw [current_kind, known.2]; exact not_lexical),
        if_pos (by rw [current_kind, known.2, at_end]), span_eq]
  · rename_i not_end
    refine .looking 1 (looks_currentToken seals) fun token => ?_
    refine .looking 1 (looks_found seals) fun shown => ?_
    refine .stop (breaks_stopWith _) fun rest known => ?_
    obtain ⟨⟨⟨-, next_kind⟩, token_eq⟩, shown_eq⟩ := known
    rw [haltWith, Context.stopUnclosed, if_neg (by rw [current_kind, next_kind]; exact not_lexical),
      if_neg (by rw [current_kind, next_kind]; exact not_end), ← shown_eq, token_eq]

/-! ## Single tokens -/

theorem follows_expect (seals : source.Sealed) {kind : Kind} (not_end : kind ≠ .endMark)
    {problem : Problem} :
    Follows source floor depth known (looks + 4) fullLooks (Checked.expect source kind problem)
      (expect source.context kind problem) :=
  .eat seals not_end (fun token _ => .pure token (Nat.le_refl _)) (follows_halt seals)

theorem follows_expectToken (seals : source.Sealed) {kind : Kind} (not_end : kind ≠ .endMark) :
    Follows source floor depth known (looks + 4) fullLooks (Checked.expectToken source kind)
      (expectToken source.context kind) := by
  refine .eat seals not_end (fun token _ => .pure token (Nat.le_refl _)) ?_
  refine .looking 1 (looks_found seals) fun shown => ?_
  refine .congr (fun rest known => ?_) (follows_haltAt seals)
  rw [haltWith, ← known.2]
  rfl

theorem follows_closeParen (seals : source.Sealed) {opened : Span} :
    Follows source floor depth known (looks + 4) fullLooks (Checked.closeParen source opened)
      (closeParen source.context opened) :=
  .eat seals nofun (fun token _ => .pure token (Nat.le_refl _)) (follows_haltUnclosed seals)

theorem follows_optional (seals : source.Sealed) {kinds : KindSet} (not_end : .endMark ∉ kinds) :
    Follows source floor depth known (looks + 2) (looks + 1) (Checked.optional source kinds)
      (optional kinds) :=
  .of_le_full fun le_full =>
    .eatOneOf seals not_end (fun token _ => .pure [Tree.leaf token] (Nat.le_of_succ_le le_full))
      (.pure [] (Nat.le_refl _))

/-! ## Lists and nested expressions -/

section

variable {separators : KindSet} {item : Run (List Tree)} {item' : Production (List Tree)}

/-- With every separator the looks start again. -/
theorem follows_elements (seals : source.Sealed) (not_end : .endMark ∉ separators)
    (follows_item : ∀ floor known, Follows source floor depth known looks (left + 2) item item')
    (steps : Nat) :
    Follows source floor depth known looks (left + 1)
      (Checked.elements source item separators steps) (elementsWithin item' separators steps) := by
  induction steps generalizing floor known with
  | zero => exact .stop (breaks_fault .stalled) fun _ _ => rfl
  | succ steps ih =>
      refine .of_le_full fun le_full => (follows_item floor known).bind fun children => ?_
      refine .eatOneOf seals not_end (fun separator _ => ?_) (.pure _ (Nat.le_refl _))
      exact (ih.mono le_full).bind fun rest => .pure _ (Nat.le_refl _)

theorem follows_chain {kind : Kind} (parts : List (List Tree)) (le : left ≤ looks) :
    Follows source floor depth known looks left (Checked.chain kind parts)
      (liftM (chain kind parts)) := by
  induction parts generalizing known with
  | nil => exact .stop (breaks_fault .stalled) fun _ _ => rfl
  | cons children rest ih =>
      cases rest with
      | nil => exact .node le
      | cons next rest =>
          rw [liftM_chain_cons_cons]
          exact ih.bind fun tail => .node (Nat.le_refl _)

theorem follows_linked (seals : source.Sealed) (not_end : .endMark ∉ separators) {kind : Kind}
    (follows_item : ∀ floor known, Follows source floor depth known looks (left + 2) item item') :
    Follows source floor depth known looks (left + 1) (Checked.linked source kind separators item)
      (linked kind separators item') := by
  intro cursor rest stands holds enough
  have linked_eq : linked kind separators item' rest =
      (elementsWithin item' separators (rest.length + 1) >>= fun parts =>
        liftM (chain kind parts)) rest := rfl
  rw [Checked.linked, run_of_ok (get_apply cursor), stands.length_eq, linked_eq]
  exact ((follows_elements seals not_end follows_item _).bind
    fun parts => follows_chain parts (Nat.le_refl _)) cursor rest stands holds enough

end

theorem follows_nested_of_limit {inner : Run α} (reached : source.limit.any (· ≤ depth) = true) :
    Follows source floor depth known looks left (Checked.nested source inner)
      (throw (.fault .recursionLimit)) := by
  intro cursor rest stands holds enough
  rw [Checked.nested, run_of_ok (get_apply cursor), stands.depth_eq, reached]
  exact Follows.stop (breaks_fail .recursionLimit) (fun _ _ => rfl) cursor rest stands holds enough

theorem BreaksOff.leave {stop : Stop} {broken : Break} {cursor : Cursor}
    (breaks : BreaksOff source stop broken cursor) : BreaksOff source stop broken cursor.left := by
  cases breaks with
  | report diagnostic cursor faultless reports_eq => exact .report diagnostic _ faultless reports_eq
  | silent cursor faultless reports_eq => exact .silent _ faultless reports_eq
  | failed fault cursor fault_eq => exact .failed fault _ fault_eq
  | fault fault cursor => exact .fault fault _

/-- One level deeper the looks start again.  A token has been taken since the level above, so that
there are never more levels than tokens. -/
theorem follows_nested {inner : Run α} {inner' : Production α}
    (follows_inner : Follows source floor (depth + 1) known fullLooks left inner inner')
    (allowed : source.limit.any (· ≤ depth) = false) :
    Follows source (floor + 1) depth known looks fullLooks (Checked.nested source inner)
      inner' := by
  intro cursor rest stands holds enough
  have answers := follows_inner cursor.entered rest stands.entered holds (Nat.le_refl _)
  have deeper_eq : Checked.deeper inner cursor =
      ((inner cursor.entered).1, (inner cursor.entered).2.left) := rfl
  rw [Checked.nested, run_of_ok (get_apply cursor), stands.depth_eq, allowed,
    if_neg Bool.false_ne_true, deeper_eq]
  generalize inner cursor.entered = answer, inner' rest = answer' at answers
  cases answers with
  | answered value cursor rest stands enough =>
      exact .answered value cursor.left rest stands.left (Nat.le_refl _)
  | stopped stop broken cursor breaks => exact .stopped stop broken cursor.left breaks.leave

end

end Grammar
end WorkItemQuery
