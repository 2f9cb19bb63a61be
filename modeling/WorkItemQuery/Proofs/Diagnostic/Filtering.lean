import Mathlib.Data.List.Basic
import WorkItemQuery.Diagnostic

/-!
# Hidden diagnostics

A list of diagnostics is filtered by letting each of them hide what it can of the others, except
that a hidden one hides nothing.  What stays is what no other one of the list hides: whatever hides
a diagnostic is hidden by none that is not itself behind the most important one at its place.  So it
does not matter when a list is filtered, and how often.
-/

namespace WorkItemQuery
namespace Diagnostic

variable {diagnostics : List Diagnostic}

/-! ## One diagnostic and another -/

theorem hides_iff {diagnostic other : Diagnostic} :
    diagnostic.hides other = true ↔ diagnostic.span.start = other.span.start ∧
      diagnostic.problem.rank < other.problem.rank := by
  simp [hides, Problem.hides]

/-- Some diagnostic of a list hides another one. -/
def HiddenBy (diagnostics : List Diagnostic) (diagnostic : Diagnostic) : Prop :=
  ∃ other ∈ diagnostics, other.hides diagnostic = true

instance (diagnostics : List Diagnostic) (diagnostic : Diagnostic) :
    Decidable (HiddenBy diagnostics diagnostic) :=
  inferInstanceAs (Decidable (∃ other ∈ diagnostics, other.hides diagnostic = true))

@[simp]
theorem hiddenBy_append {front back : List Diagnostic} {diagnostic : Diagnostic} :
    HiddenBy (front ++ back) diagnostic ↔ HiddenBy front diagnostic ∨ HiddenBy back diagnostic := by
  simp [HiddenBy, or_and_right, exists_or]

/-- Among all that start at a place, some diagnostic is hidden by none. -/
theorem exists_not_hiddenBy {diagnostic : Diagnostic} (mem : diagnostic ∈ diagnostics) :
    ∃ top ∈ diagnostics, top.span.start = diagnostic.span.start ∧
      top.problem.rank ≤ diagnostic.problem.rank ∧ ¬ HiddenBy diagnostics top := by
  induction rank_eq : diagnostic.problem.rank using Nat.strongRecOn generalizing diagnostic with
  | ind rank ih =>
      by_cases is_hidden : HiddenBy diagnostics diagnostic
      · obtain ⟨other, other_mem, other_hides⟩ := is_hidden
        obtain ⟨start_eq, less⟩ := hides_iff.1 other_hides
        obtain ⟨top, top_mem, top_start, top_rank, top_shown⟩ := ih _ (rank_eq ▸ less) other_mem rfl
        exact ⟨top, top_mem, top_start.trans start_eq,
          Nat.le_of_lt (Nat.lt_of_le_of_lt top_rank (rank_eq ▸ less)), top_shown⟩
      · exact ⟨diagnostic, mem, rfl, Nat.le_of_eq rank_eq, is_hidden⟩

/-- What is hidden at all is hidden by one that is not. -/
theorem HiddenBy.exists_top {diagnostic : Diagnostic} (is_hidden : HiddenBy diagnostics diagnostic) :
    ∃ top ∈ diagnostics, top.hides diagnostic = true ∧ ¬ HiddenBy diagnostics top := by
  obtain ⟨other, other_mem, other_hides⟩ := is_hidden
  obtain ⟨start_eq, less⟩ := hides_iff.1 other_hides
  obtain ⟨top, top_mem, top_start, top_rank, top_shown⟩ := exists_not_hiddenBy other_mem
  exact ⟨top, top_mem,
    hides_iff.2 ⟨top_start.trans start_eq, Nat.lt_of_le_of_lt top_rank less⟩, top_shown⟩

/-! ## Marks -/

section

variable {hidden later last : Vector Bool diagnostics.length}

/-- Only what some diagnostic of the list hides is marked. -/
def IsSound (hidden : Vector Bool diagnostics.length) : Prop :=
  ∀ place : Fin diagnostics.length,
    hidden.get place = true → HiddenBy diagnostics (diagnostics.get place)

/-- What is marked stays marked. -/
def Grows (hidden later : Vector Bool diagnostics.length) : Prop :=
  ∀ place : Fin diagnostics.length, hidden.get place = true → later.get place = true

theorem Grows.refl (hidden : Vector Bool diagnostics.length) : Grows hidden hidden :=
  fun _ marked => marked

theorem Grows.trans (grows : Grows hidden later) (grows_last : Grows later last) :
    Grows hidden last :=
  fun place marked => grows_last place (grows place marked)

/-- What is not marked later is not marked before. -/
theorem Grows.shown (grows : Grows hidden later) {place : Fin diagnostics.length}
    (shown : later.get place = false) : hidden.get place = false := by
  by_contra marked
  rw [grows place (by simpa using marked)] at shown
  cases shown

theorem get_set (hidden : Vector Bool diagnostics.length)
    (place other : Fin diagnostics.length) :
    (hidden.set place true place.isLt).get other = (decide (place = other) || hidden.get other) := by
  by_cases same : place = other
  · rw [decide_eq_true same, Bool.true_or, ← same]
    exact Vector.getElem_set_self place.isLt
  · rw [decide_eq_false same, Bool.false_or]
    exact Vector.getElem_set_ne place.isLt other.isLt fun eq => same (Fin.ext eq)

/-- One step leaves the marks as they are, or marks the second place. -/
theorem hide_cases (first second : Fin diagnostics.length)
    (hidden : Vector Bool diagnostics.length) :
    (hide diagnostics first second hidden = hidden ∧
      (hidden.get first = false → (diagnostics.get first).hides (diagnostics.get second) = true →
        hidden.get second = true)) ∨
    (hide diagnostics first second hidden = hidden.set second true second.isLt ∧
      (diagnostics.get first).hides (diagnostics.get second) = true) := by
  rw [hide]
  split_ifs with skipped first_hides
  · refine .inl ⟨rfl, fun first_shown first_hides => ?_⟩
    obtain rfl | first_marked | second_marked := skipped
    · exact absurd (hides_iff.1 first_hides).2 (Nat.lt_irrefl _)
    · rw [first_shown] at first_marked
      cases first_marked
    · exact second_marked
  · exact .inr ⟨rfl, first_hides⟩
  · exact .inl ⟨rfl, fun _ hides => absurd hides first_hides⟩

theorem IsSound.hide (sound : IsSound hidden) (first second : Fin diagnostics.length) :
    IsSound (hide diagnostics first second hidden) := by
  obtain ⟨hide_eq, -⟩ | ⟨hide_eq, first_hides⟩ := hide_cases first second hidden
  · rwa [hide_eq]
  · rw [hide_eq]
    intro place marked
    rw [get_set, Bool.or_eq_true, decide_eq_true_eq] at marked
    obtain rfl | marked := marked
    · exact ⟨_, List.getElem_mem _, first_hides⟩
    · exact sound place marked

theorem grows_hide (first second : Fin diagnostics.length)
    (hidden : Vector Bool diagnostics.length) :
    Grows hidden (hide diagnostics first second hidden) := by
  intro place marked
  obtain ⟨hide_eq, -⟩ | ⟨hide_eq, -⟩ := hide_cases first second hidden
  · rwa [hide_eq]
  · rw [hide_eq, get_set, marked, Bool.or_true]

/-- Behind its step the second place is marked, if the first one is not and hides it. -/
theorem get_hide {first second : Fin diagnostics.length} (shown : hidden.get first = false)
    (hides : (diagnostics.get first).hides (diagnostics.get second) = true) :
    (hide diagnostics first second hidden).get second = true := by
  obtain ⟨hide_eq, marked⟩ | ⟨hide_eq, -⟩ := hide_cases first second hidden
  · rw [hide_eq]
    exact marked shown hides
  · rw [hide_eq, get_set, decide_eq_true rfl, Bool.true_or]

/-! ## Runs over all places -/

variable {step : Vector Bool diagnostics.length → Fin diagnostics.length →
    Vector Bool diagnostics.length}

theorem IsSound.foldl (sound : IsSound hidden)
    (step_sound : ∀ hidden place, IsSound hidden → IsSound (step hidden place))
    (places : List (Fin diagnostics.length)) : IsSound (places.foldl step hidden) := by
  induction places generalizing hidden with
  | nil => exact sound
  | cons place rest ih => exact ih (step_sound hidden place sound)

theorem grows_foldl (step_grows : ∀ hidden place, Grows hidden (step hidden place))
    (places : List (Fin diagnostics.length)) (hidden : Vector Bool diagnostics.length) :
    Grows hidden (places.foldl step hidden) := by
  induction places generalizing hidden with
  | nil => exact .refl hidden
  | cons place rest ih => exact (step_grows hidden place).trans (ih _)

/-- Every place has its turn: nothing that is marked then gets lost. -/
theorem exists_turn (step_grows : ∀ hidden place, Grows hidden (step hidden place))
    (hidden : Vector Bool diagnostics.length) (place : Fin diagnostics.length) :
    ∃ before, Grows (step before place)
      ((List.finRange diagnostics.length).foldl step hidden) := by
  obtain ⟨front, back, places_eq⟩ := List.append_of_mem (List.mem_finRange place)
  rw [places_eq, List.foldl_append, List.foldl_cons]
  exact ⟨front.foldl step hidden, grows_foldl step_grows back _⟩

theorem IsSound.hideOthers (sound : IsSound hidden) (first : Fin diagnostics.length) :
    IsSound (hideOthers diagnostics hidden first) :=
  sound.foldl (fun _ second sound => sound.hide first second) _

theorem grows_hideOthers (hidden : Vector Bool diagnostics.length)
    (first : Fin diagnostics.length) : Grows hidden (hideOthers diagnostics hidden first) :=
  grows_foldl (fun hidden second => grows_hide first second hidden) _ hidden

/-- A diagnostic that is still shown behind its own turn has hidden what it can. -/
theorem get_hideOthers {first second : Fin diagnostics.length}
    (shown : (hideOthers diagnostics hidden first).get first = false)
    (hides : (diagnostics.get first).hides (diagnostics.get second) = true) :
    (hideOthers diagnostics hidden first).get second = true := by
  have step_grows : ∀ hidden second, Grows hidden (hide diagnostics first second hidden) :=
    fun hidden second => grows_hide first second hidden
  obtain ⟨before, grows⟩ := exists_turn step_grows hidden second
  have first_shown : before.get first = false := ((step_grows before second).trans grows).shown shown
  exact grows second (get_hide first_shown hides)

end

/-- In the end exactly those are marked that some diagnostic of the list hides. -/
theorem get_hiddenAmong (diagnostics : List Diagnostic) (place : Fin diagnostics.length) :
    (hiddenAmong diagnostics).get place = true ↔ HiddenBy diagnostics (diagnostics.get place) := by
  have start_sound : IsSound (Vector.replicate diagnostics.length false) := by
    intro place marked
    have shown : (Vector.replicate diagnostics.length false).get place = false :=
      Vector.getElem_replicate place.isLt
    rw [shown] at marked
    cases marked
  have sound : IsSound (hiddenAmong diagnostics) :=
    start_sound.foldl (fun _ first sound => sound.hideOthers first) _
  refine ⟨sound place, fun is_hidden => ?_⟩
  -- Of all that hide it, the most important one is never marked, so that its turn counts.
  obtain ⟨top, top_mem, top_hides, top_shown⟩ := is_hidden.exists_top
  obtain ⟨index, lt, rfl⟩ := List.getElem_of_mem top_mem
  obtain ⟨before, grows⟩ :=
    exists_turn grows_hideOthers (Vector.replicate diagnostics.length false) ⟨index, lt⟩
  have shown : (hiddenAmong diagnostics).get ⟨index, lt⟩ = false := by
    by_contra marked
    exact top_shown (sound ⟨index, lt⟩ (by simpa using marked))
  exact grows place (get_hideOthers (grows.shown shown) top_hides)

/-! ## The filtered list -/

/-- What stays of a list is what none of its diagnostics hides. -/
theorem filtered_eq_filter (diagnostics : List Diagnostic) :
    filtered diagnostics =
      diagnostics.filter fun diagnostic => !decide (HiddenBy diagnostics diagnostic) := by
  have marks_eq : (hiddenAmong diagnostics).toList =
      diagnostics.map fun diagnostic => decide (HiddenBy diagnostics diagnostic) := by
    refine List.ext_getElem (by simp) fun index _ lt => ?_
    rw [List.length_map] at lt
    have marked_iff := get_hiddenAmong diagnostics ⟨index, lt⟩
    rw [List.getElem_map, Vector.getElem_toList, Bool.eq_iff_iff, decide_eq_true_iff]
    exact marked_iff
  have zip_eq : diagnostics.zip (hiddenAmong diagnostics).toList =
      diagnostics.map fun diagnostic =>
        (diagnostic, decide (HiddenBy diagnostics diagnostic)) := by
    have zip_map := List.zip_map' (f := id)
      (g := fun diagnostic => decide (HiddenBy diagnostics diagnostic)) (l := diagnostics)
    rwa [List.map_id, ← marks_eq] at zip_map
  rw [filtered, zip_eq, List.filter_map, List.map_map]
  exact List.map_id _

theorem mem_filtered {diagnostic : Diagnostic} :
    diagnostic ∈ filtered diagnostics ↔
      diagnostic ∈ diagnostics ∧ ¬ HiddenBy diagnostics diagnostic := by
  simp [filtered_eq_filter]

theorem filtered_eq_self (all_shown : ∀ diagnostic ∈ diagnostics, ¬ HiddenBy diagnostics diagnostic) :
    filtered diagnostics = diagnostics := by
  rw [filtered_eq_filter, List.filter_eq_self]
  intro diagnostic mem
  rw [decide_eq_false (all_shown diagnostic mem), Bool.not_false]

/-- What stays of a list hides the same as the whole list. -/
@[simp]
theorem hiddenBy_filtered {diagnostic : Diagnostic} :
    HiddenBy (filtered diagnostics) diagnostic ↔ HiddenBy diagnostics diagnostic := by
  constructor
  · rintro ⟨other, other_mem, other_hides⟩
    exact ⟨other, (mem_filtered.1 other_mem).1, other_hides⟩
  · intro is_hidden
    obtain ⟨top, top_mem, top_hides, top_shown⟩ := is_hidden.exists_top
    exact ⟨top, mem_filtered.2 ⟨top_mem, top_shown⟩, top_hides⟩

/-- What hides more than a part of a list does makes up for filtering the part. -/
theorem filter_filtered {wider : Diagnostic → Prop} [DecidablePred wider]
    (of_hidden : ∀ diagnostic, HiddenBy diagnostics diagnostic → wider diagnostic) :
    (filtered diagnostics).filter (fun diagnostic => !decide (wider diagnostic)) =
      diagnostics.filter fun diagnostic => !decide (wider diagnostic) := by
  rw [filtered_eq_filter, List.filter_filter]
  refine List.filter_congr fun diagnostic _ => ?_
  by_cases is_hidden : HiddenBy diagnostics diagnostic
  · simp [of_hidden diagnostic is_hidden]
  · simp [is_hidden]

/-- It does not matter whether a part of a list is filtered before the list is. -/
theorem filtered_append (front back : List Diagnostic) :
    filtered (filtered front ++ filtered back) = filtered (front ++ back) := by
  simp only [filtered_eq_filter (_ ++ _), hiddenBy_append, hiddenBy_filtered, List.filter_append]
  rw [filter_filtered fun _ => .inl, filter_filtered fun _ => .inr]

theorem filtered_filtered (diagnostics : List Diagnostic) :
    filtered (filtered diagnostics) = filtered diagnostics := by
  have nothing_behind := filtered_append diagnostics []
  have filtered_nil : filtered [] = [] := rfl
  rwa [List.append_nil, filtered_nil, List.append_nil] at nothing_behind

/-- An error is hidden by errors only, since what is only a warning is the least important. -/
theorem hasErrors_filtered (diagnostics : List Diagnostic) :
    hasErrors (filtered diagnostics) = hasErrors diagnostics := by
  have least : ∀ problem other : Problem, other.rank ≤ problem.rank → problem.severity = .error →
      other.severity = .error := by
    intro problem other
    cases problem <;> cases other <;> decide
  rw [Bool.eq_iff_iff, hasErrors, hasErrors, List.any_eq_true, List.any_eq_true]
  constructor
  · rintro ⟨diagnostic, mem, is_error⟩
    exact ⟨diagnostic, (mem_filtered.1 mem).1, is_error⟩
  · rintro ⟨diagnostic, mem, is_error⟩
    obtain ⟨top, top_mem, -, top_rank, top_shown⟩ := exists_not_hiddenBy mem
    refine ⟨top, mem_filtered.2 ⟨top_mem, top_shown⟩, beq_iff_eq.2 ?_⟩
    exact least _ _ top_rank (beq_iff_eq.1 is_error)

/-! ## How a list comes about -/

/-- A list of diagnostics that comes about step by step. -/
inductive History where
  /-- The list is empty at first. -/
  | start
  /-- A diagnostic is reported. -/
  | report (before : History) (diagnostic : Diagnostic)
  /-- Another list, with its own history, is put behind. -/
  | extend (before other : History)
  /-- The list is filtered. -/
  | filter (before : History)

namespace History

/-- The list in the end. -/
def messages : History → List Diagnostic
  | start => []
  | report before diagnostic => before.messages ++ [diagnostic]
  | extend before other => before.messages ++ other.messages
  | filter before => filtered before.messages

/-- All diagnostics that have ever been reported, in order. -/
def reported : History → List Diagnostic
  | start => []
  | report before diagnostic => before.reported ++ [diagnostic]
  | extend before other => before.reported ++ other.reported
  | filter before => before.reported

/-- Filtering a list in the end makes up for all filtering before. -/
theorem filtered_messages (history : History) :
    filtered history.messages = filtered history.reported := by
  induction history with
  | start => rfl
  | report before diagnostic ih =>
      rw [messages, reported, ← filtered_append, ih, filtered_append]
  | extend before other ih other_ih =>
      rw [messages, reported, ← filtered_append, ih, other_ih, filtered_append]
  | filter before ih => rw [messages, reported, filtered_filtered, ih]

end History

/-- What is kept of a list of diagnostics. -/
structure IsFiltering (diagnostics kept : List Diagnostic) : Prop where
  /-- All those are kept, in order, at whose place nothing more important starts. -/
  kept_eq : kept = diagnostics.filter fun diagnostic =>
    decide (∀ other ∈ diagnostics, other.span.start = diagnostic.span.start →
      ¬ other.problem.rank < diagnostic.problem.rank)
  /-- Of several with the same problem at the same place, all are kept or none. -/
  equals : ∀ diagnostic ∈ kept, ∀ other ∈ diagnostics, other.span.start = diagnostic.span.start →
    other.problem = diagnostic.problem → other ∈ kept
  /-- Filtering what is kept changes nothing. -/
  again : filtered kept = kept
  /-- Something is kept wherever something starts. -/
  covers : ∀ diagnostic ∈ diagnostics, ∃ other ∈ kept, other.span.start = diagnostic.span.start
  /-- Errors are kept, if there are any. -/
  errors : hasErrors kept = hasErrors diagnostics

/-- However a list of diagnostics has come about, filtering it gives what filtering all that has
ever been reported gives: all those at whose place nothing more important starts. -/
theorem filtered_exact :
    (∀ history : History, filtered history.messages = filtered history.reported) ∧
      ∀ diagnostics, IsFiltering diagnostics (filtered diagnostics) := by
  refine ⟨History.filtered_messages, fun diagnostics => ⟨?_, ?_, filtered_filtered diagnostics, ?_,
    hasErrors_filtered diagnostics⟩⟩
  · rw [filtered_eq_filter]
    refine List.filter_congr fun diagnostic _ => ?_
    rw [← decide_not, decide_eq_decide]
    simp [HiddenBy, hides_iff]
  · intro diagnostic mem other other_mem start_eq problem_eq
    refine mem_filtered.2 ⟨other_mem, ?_⟩
    rintro ⟨hider, hider_mem, hider_hides⟩
    rw [hides_iff, start_eq, problem_eq, ← hides_iff] at hider_hides
    exact (mem_filtered.1 mem).2 ⟨hider, hider_mem, hider_hides⟩
  · intro diagnostic mem
    obtain ⟨top, top_mem, start_eq, -, top_shown⟩ := exists_not_hiddenBy mem
    exact ⟨top, mem_filtered.2 ⟨top_mem, top_shown⟩, start_eq⟩

end Diagnostic
end WorkItemQuery
