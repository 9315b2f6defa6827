import Mathlib.Data.List.TakeWhile

/-! The longest run of items at the front of a list that pass a test. A list whose first item fails the
test stops every run that stands before it. -/

namespace ApiDocs.Proofs

variable {α : Type} {test other : α → Bool} {items after : List α}

def Stops (test : α → Bool) (after : List α) : Prop := ∀ item ∈ after.head?, test item = false

theorem Stops.mono (implies : ∀ item, test item = true → other item = true) (stops : Stops other after) :
    Stops test after := by
  intro item first
  refine Bool.eq_false_iff.mpr fun passes => ?_
  cases (stops item first).symm.trans (implies item passes)

theorem stops_append (stops : Stops test items) {item : α} (fails : test item = false) (after : List α) :
    Stops test (items ++ item :: after) := by
  cases items with
  | nil =>
    intro first found
    cases found
    exact fails
  | cons first items => exact stops

theorem stops_dropWhile (test : α → Bool) (items : List α) : Stops test (items.dropWhile test) := by
  intro item first
  have known := List.head?_dropWhile_not test items
  rw [first] at known
  exact known

theorem takeWhile_stops (all : ∀ item ∈ items, test item = true) (stops : Stops test after) :
    (items ++ after).takeWhile test = items ∧ (items ++ after).dropWhile test = after := by
  rw [List.takeWhile_append_of_pos all, List.dropWhile_append_of_pos all]
  cases after with
  | nil => simp
  | cons item after => simp [stops item rfl]

theorem dropWhile_of_stops (stops : Stops test after) : after.dropWhile test = after :=
  (takeWhile_stops (List.forall_mem_nil _) stops).2

end ApiDocs.Proofs
