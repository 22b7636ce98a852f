import Mathlib

/-! Weights summed over the first parties of a system. A step that moves one
party changes the sum by the difference of its two weights; counting the parties
of a kind is summing weights of nought and one. -/
namespace Miniweb.Lib

variable {β : Type*} {n i : ℕ} {weight weight' : β → ℕ} {parties parties' : ℕ → β} {x : β}

/-- The weights of the first `n` parties together. -/
def tally (n : ℕ) (weight : β → ℕ) (parties : ℕ → β) : ℕ :=
  ∑ i ∈ Finset.range n, weight (parties i)

@[simp] theorem tally_zero : tally 0 weight parties = 0 := rfl

theorem tally_succ : tally (n + 1) weight parties = tally n weight parties + weight (parties n) :=
  Finset.sum_range_succ ..

/-- One party has moved. -/
theorem tally_update (inside : i < n) :
    tally n weight (Function.update parties i x) + weight (parties i) =
      tally n weight parties + weight x := by
  have others : ∀ j ∈ (Finset.range n).erase i,
      weight (Function.update parties i x j) = weight (parties j) := by
    intro j member
    rw [Function.update_of_ne (Finset.ne_of_mem_erase member)]
  have member : i ∈ Finset.range n := Finset.mem_range.mpr inside
  unfold tally
  rw [← Finset.add_sum_erase _ _ member, ← Finset.add_sum_erase _ _ member, Finset.sum_congr rfl others,
    Function.update_self]
  omega

/-- A party beyond the count does not matter. -/
theorem tally_update_outside (outside : n ≤ i) :
    tally n weight (Function.update parties i x) = tally n weight parties := by
  refine Finset.sum_congr rfl fun j member => ?_
  have below := Finset.mem_range.mp member
  rw [Function.update_of_ne (by omega)]

theorem tally_le (smaller : ∀ j < n, weight (parties j) ≤ weight' (parties' j)) :
    tally n weight parties ≤ tally n weight' parties' :=
  Finset.sum_le_sum fun j member => smaller j (Finset.mem_range.mp member)

/-- A sum whose summands do not shrink and one of which grows. -/
theorem tally_lt (smaller : ∀ j < n, weight (parties j) ≤ weight' (parties' j)) (inside : i < n)
    (grows : weight (parties i) < weight' (parties' i)) :
    tally n weight parties < tally n weight' parties' :=
  Finset.sum_lt_sum (fun j member => smaller j (Finset.mem_range.mp member))
    ⟨i, Finset.mem_range.mpr inside, grows⟩

/-- With weights bounded by `bound`, so is their mean. -/
theorem tally_le_mul {bound : ℕ} (small : ∀ x, weight x ≤ bound) :
    tally n weight parties ≤ n * bound := by
  calc tally n weight parties ≤ ∑ _i ∈ Finset.range n, bound :=
        Finset.sum_le_sum fun _ _ => small _
    _ = n * bound := by rw [Finset.sum_const, Finset.card_range, smul_eq_mul]

/-- Nothing weighs anything exactly when each party does not. -/
theorem tally_eq_zero : tally n weight parties = 0 ↔ ∀ j < n, weight (parties j) = 0 := by
  simp [tally, Finset.sum_eq_zero_iff]

end Miniweb.Lib
