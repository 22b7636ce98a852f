import Mathlib

/-! The first different keys of a sequence, up to a number of places: what a table holds
that takes each new key while a place is free. -/
namespace Miniweb.Lib.Firsts

variable {α : Type*} [BEq α] {capacity : Nat} {keys : List α}

/-- The first different keys. -/
def firsts (capacity : Nat) (keys : List α) : List α := keys.eraseDups.take capacity

theorem firsts_nil : firsts capacity ([] : List α) = [] := by simp [firsts]

/-- While a place is free, no key has been left out. -/
theorem firsts_of_room (room : (firsts capacity keys).length < capacity) :
    firsts capacity keys = keys.eraseDups := by
  rw [firsts, List.length_take] at room
  exact List.take_of_length_le (by omega)

theorem eraseDups_concat [LawfulBEq α] (keys : List α) (key : α) :
    (keys ++ [key]).eraseDups = keys.eraseDups ++ if key ∈ keys then [] else [key] := by
  rw [List.eraseDups_append, List.removeAll]
  split
  · rename_i member
    simp [member]
  · rename_i fresh
    simp [fresh, List.eraseDups_cons]

/-- A key takes a place if one is free and it has none yet. -/
theorem firsts_concat [LawfulBEq α] (capacity : Nat) (keys : List α) (key : α) :
    firsts capacity (keys ++ [key]) =
      if (firsts capacity keys).length < capacity ∧ key ∉ firsts capacity keys then
        firsts capacity keys ++ [key]
      else firsts capacity keys := by
  by_cases room : (firsts capacity keys).length < capacity
  · have all := firsts_of_room room
    rw [all] at room ⊢
    rw [firsts, eraseDups_concat]
    by_cases member : key ∈ keys
    · simp [member, room.le]
    · rw [if_neg member, if_pos ⟨room, by simpa using member⟩]
      apply List.take_of_length_le
      rw [List.length_append]
      exact room
  · rw [if_neg (fun both => room both.1)]
    have full : capacity ≤ keys.eraseDups.length := by
      rw [firsts, List.length_take] at room
      omega
    rw [firsts, firsts, eraseDups_concat, List.take_append_of_le_length full]

theorem length_firsts_le_length [LawfulBEq α] (capacity : Nat) (keys : List α) :
    (firsts capacity keys).length ≤ keys.length := by
  induction keys using List.reverseRecOn with
  | nil => simp [firsts_nil]
  | append_singleton keys key ih =>
    rw [firsts_concat, List.length_append, List.length_singleton]
    split
    · rw [List.length_append]
      exact Nat.succ_le_succ ih
    · exact ih.trans (Nat.le_succ _)

end Miniweb.Lib.Firsts
