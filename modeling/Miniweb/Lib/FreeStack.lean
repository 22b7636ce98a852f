import Mathlib

/-! A stack of free indices over an array of `n` cells: the entries below `top`
name each free cell once, and every other cell is in use. This is the invariant
an O(1) allocator keeps when it pops an index to allocate and pushes it back to
release, whatever the cells hold. -/
namespace Miniweb.Lib.FreeStack

variable {n : Nat} {stack : Nat → Fin n} {top : Nat} {used : Finset (Fin n)}

/-- The stack below `top` lists exactly the cells outside `used`, each once. -/
structure Splits (stack : Nat → Fin n) (top : Nat) (used : Finset (Fin n)) : Prop where
  distinct : ∀ i < top, ∀ j < top, stack i = stack j → i = j
  free_iff : ∀ s, s ∉ used ↔ ∃ i < top, stack i = s

/-- Free entries and used cells together count every cell. -/
theorem Splits.card_add_top (splits : Splits stack top used) : used.card + top = n := by
  have free : usedᶜ = (Finset.range top).image stack := by
    ext s
    simp only [Finset.mem_compl, splits.free_iff, Finset.mem_image, Finset.mem_range]
  have injective : Set.InjOn stack (Finset.range top) := by
    intro i below j below' same
    exact splits.distinct i (by simpa using below) j (by simpa using below') same
  have count : usedᶜ.card = top := by
    rw [free, Finset.card_image_of_injOn injective, Finset.card_range]
  have total := Finset.card_add_card_compl used
  simpa [count] using total

/-- The entry on top is a free cell. -/
theorem Splits.top_free (splits : Splits stack (top + 1) used) : stack top ∉ used :=
  (splits.free_iff _).mpr ⟨top, Nat.lt_succ_self _, rfl⟩

/-- Popping the top entry puts its cell in use. -/
theorem Splits.pop (splits : Splits stack (top + 1) used) :
    Splits stack top (insert (stack top) used) where
  distinct i below j below' same := splits.distinct i (by omega) j (by omega) same
  free_iff s := by
    rw [Finset.mem_insert, not_or, splits.free_iff]
    constructor
    · rintro ⟨other, i, below, rfl⟩
      have : i ≠ top := fun same => other (congrArg stack same)
      exact ⟨i, by omega, rfl⟩
    · rintro ⟨i, below, rfl⟩
      refine ⟨fun same => ?_, i, by omega, rfl⟩
      have := splits.distinct i (by omega) top (by omega) same
      omega

/-- Pushing a cell in use frees it. -/
theorem Splits.push (splits : Splits stack top used) {s : Fin n} (held : s ∈ used) :
    Splits (Function.update stack top s) (top + 1) (used.erase s) where
  distinct i below j below' same := by
    have outside : ∀ k < top, stack k ≠ s := fun k lower same =>
      (splits.free_iff s).mpr ⟨k, lower, same⟩ held
    by_cases first : i = top <;> by_cases second : j = top
    · omega
    · subst first
      rw [Function.update_self, Function.update_of_ne second] at same
      exact absurd same.symm (outside j (by omega))
    · subst second
      rw [Function.update_self, Function.update_of_ne first] at same
      exact absurd same (outside i (by omega))
    · rw [Function.update_of_ne first, Function.update_of_ne second] at same
      exact splits.distinct i (by omega) j (by omega) same
  free_iff t := by
    rw [Finset.mem_erase, not_and_or, not_ne_iff, splits.free_iff]
    constructor
    · rintro (rfl | ⟨i, below, rfl⟩)
      · exact ⟨top, by omega, Function.update_self ..⟩
      · exact ⟨i, by omega, Function.update_of_ne (by omega) ..⟩
    · rintro ⟨i, below, rfl⟩
      by_cases last : i = top
      · subst last
        exact Or.inl (Function.update_self ..)
      · rw [Function.update_of_ne last]
        exact Or.inr ⟨i, by omega, rfl⟩

end Miniweb.Lib.FreeStack
