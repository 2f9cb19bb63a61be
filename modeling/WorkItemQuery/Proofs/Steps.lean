import Mathlib.Data.List.Forall2

/-!
# Steps that may fail

An answer may need one step after another, or one step for each item of a list.  It is there if
every step succeeds.
-/

namespace WorkItemQuery

section

variable {α β ε : Type} {first : Except ε α} {next : α → Except ε β}

theorem ok_bind (value : α) (next : α → Except ε β) : (Except.ok value >>= next) = next value := rfl

theorem bind_eq_of_ok {answer : Except ε β} (value : α) (first_eq : first = .ok value)
    (next_eq : next value = answer) : (first >>= next) = answer := by
  rw [first_eq]
  exact next_eq

theorem bind_eq_ok {answer : β} (bind_eq : (first >>= next) = .ok answer) :
    ∃ value, first = .ok value ∧ next value = .ok answer := by
  cases first with
  | error error => cases bind_eq
  | ok value => exact ⟨value, rfl, bind_eq⟩

end

section

variable {α β : Type} {m : Type → Type} [Monad m] [LawfulMonad m] {read : α → m β} {items : List α}

theorem mapM_eq_of_forall₂ {values : List β}
    (all_read : List.Forall₂ (fun item value => read item = pure value) items values) :
    items.mapM read = pure values := by
  induction all_read with
  | nil => exact List.mapM_nil
  | cons item_read _ ih => rw [List.mapM_cons, item_read, ih, pure_bind, pure_bind]

/-- What is read from each item of a list is read from all of them. -/
theorem exists_mapM_eq (reads : ∀ item ∈ items, ∃ value, read item = pure value) :
    ∃ values, items.mapM read = pure values ∧
      List.Forall₂ (fun item value => read item = pure value) items values := by
  have all_read :
      ∃ values, List.Forall₂ (fun item value => read item = pure value) items values := by
    induction items with
    | nil => exact ⟨[], .nil⟩
    | cons item rest ih =>
        obtain ⟨⟨value, value_eq⟩, rest_reads⟩ := List.forall_mem_cons.1 reads
        obtain ⟨values, all_eq⟩ := ih rest_reads
        exact ⟨value :: values, .cons value_eq all_eq⟩
  obtain ⟨values, all_read⟩ := all_read
  exact ⟨values, mapM_eq_of_forall₂ all_read, all_read⟩

end

end WorkItemQuery
