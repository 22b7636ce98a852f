import Mathlib

/-! The least of some values, looked for with one variable. It starts out with a value
that stands for none, so the first value is taken whatever it is, and each later one
when it is less. -/
namespace Miniweb.Lib.Least

variable {α : Type*} [LinearOrder α] {unset least x : α} {values : List α}

/-- One round of the search. -/
def lower (unset least x : α) : α := if least = unset ∨ x < least then x else least

/-- Where the search ends. -/
def leastOf (unset : α) (values : List α) : α := values.foldl (lower unset) unset

theorem lower_unset : lower unset unset x = x := if_pos (.inl rfl)

theorem lower_set (set : least ≠ unset) : lower unset least x = min least x := by
  unfold lower
  by_cases less : x < least
  · rw [if_pos (.inr less), min_eq_right less.le]
  · rw [if_neg (not_or.mpr ⟨set, less⟩), min_eq_left (not_lt.mp less)]

/-- Once a value is taken, the search ends at the least of it and the others. -/
theorem foldl_lower (set : least ≠ unset) (values_set : unset ∉ values) :
    IsLeast {y | y ∈ least :: values} (values.foldl (lower unset) least) := by
  induction values generalizing least with
  | nil => simp [IsLeast, lowerBounds]
  | cons x rest ih =>
    obtain ⟨x_set, rest_set⟩ := not_or.mp (mt List.mem_cons.mpr values_set)
    rw [List.foldl_cons, lower_set set]
    have taken : min least x ≠ unset := by
      rcases min_choice least x with first | second
      · rwa [first]
      · rw [second]
        exact Ne.symm x_set
    obtain ⟨member, bound⟩ := ih taken rest_set
    have below : rest.foldl (lower unset) (min least x) ≤ min least x := bound (by simp)
    constructor
    · rcases List.mem_cons.mp member with first | later
      · rcases min_choice least x with same | same
        · exact List.mem_cons.mpr (.inl (first.trans same))
        · exact List.mem_cons_of_mem _ (List.mem_cons.mpr (.inl (first.trans same)))
      · exact List.mem_cons_of_mem _ (List.mem_cons_of_mem _ later)
    · intro y among
      rcases List.mem_cons.mp among with rfl | among
      · exact below.trans (min_le_left _ _)
      · rcases List.mem_cons.mp among with rfl | later
        · exact below.trans (min_le_right _ _)
        · exact bound (List.mem_cons_of_mem _ later)

/-- The search ends at the least of the values, if there is one, -/
theorem leastOf_isLeast (values_set : unset ∉ values) (some_value : values ≠ []) :
    IsLeast {y | y ∈ values} (leastOf unset values) := by
  cases values with
  | nil => exact absurd rfl some_value
  | cons x rest =>
    obtain ⟨x_set, rest_set⟩ := not_or.mp (mt List.mem_cons.mpr values_set)
    rw [leastOf, List.foldl_cons, lower_unset]
    exact foldl_lower (Ne.symm x_set) rest_set

/-- and where it started only without any. -/
theorem leastOf_eq_unset_iff (values_set : unset ∉ values) :
    leastOf unset values = unset ↔ values = [] := by
  constructor
  · intro same
    by_contra some_value
    have member := (leastOf_isLeast values_set some_value).1
    rw [same] at member
    exact values_set member
  · rintro rfl
    rfl

end Miniweb.Lib.Least
