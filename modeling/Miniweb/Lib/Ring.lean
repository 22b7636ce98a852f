import Mathlib

/-! A circular array read as a list: `count` entries from `head`, wrapping at
`capacity`. Writing behind the last entry appends, and advancing `head` drops
the first entry; both hold through any number of wraparounds because an entry
is found by its offset from `head`, never by comparing `head` with a tail. -/
namespace Miniweb.Lib.Ring

variable {β : Type*} {items : Nat → β} {capacity head count : Nat}

/-- The entries of the ring, oldest first. -/
def contents (items : Nat → β) (capacity head count : Nat) : List β :=
  (List.range count).map fun i => items ((head + i) % capacity)

@[simp] theorem length_contents : (contents items capacity head count).length = count := by
  simp [contents]

@[simp] theorem contents_zero : contents items capacity head 0 = [] := rfl

/-- Offsets below the capacity name different cells. -/
theorem offset_injective {i j : Nat} (below : i < capacity) (below' : j < capacity)
    (same : (head + i) % capacity = (head + j) % capacity) : i = j := by
  have cancelled : i ≡ j [MOD capacity] := Nat.ModEq.add_left_cancel' head same
  rwa [Nat.ModEq, Nat.mod_eq_of_lt below, Nat.mod_eq_of_lt below'] at cancelled

/-- Writing at the offset `count` of a ring that is not full appends. -/
theorem contents_write (room : count < capacity) (x : β) :
    contents (Function.update items ((head + count) % capacity) x) capacity head (count + 1) =
      contents items capacity head count ++ [x] := by
  simp only [contents, List.range_succ, List.map_append, List.map_cons, List.map_nil,
    Function.update_self]
  congr 1
  apply List.map_congr_left
  intro i member
  have below : i < count := List.mem_range.mp member
  refine Function.update_of_ne (fun same => ?_) _ _
  have := offset_injective (by omega) room same
  omega

/-- The oldest entry is the one at `head`, and dropping it advances `head`. -/
theorem contents_succ (within : head < capacity) :
    contents items capacity head (count + 1) =
      items head :: contents items capacity ((head + 1) % capacity) count := by
  rw [contents, List.range_succ_eq_map, List.map_cons, List.map_map]
  congr 1
  · rw [Nat.add_zero, Nat.mod_eq_of_lt within]
  · apply List.map_congr_left
    intro i _
    show items ((head + (i + 1)) % capacity) = items (((head + 1) % capacity + i) % capacity)
    rw [Nat.mod_add_mod, Nat.add_assoc, Nat.add_comm 1 i]

/-! ## From the newest entry

Where old entries are overwritten, `head` is the cell the next entry goes to, and the
newest one stands in front of it. -/

/-- The last `count` entries, newest first. -/
def recent (items : Nat → β) (capacity head count : Nat) : List β :=
  (List.range count).map fun i => items ((head + capacity - 1 - i) % capacity)

@[simp] theorem length_recent : (recent items capacity head count).length = count := by
  simp [recent]

theorem take_recent {n : Nat} (fewer : n ≤ count) :
    (recent items capacity head count).take n = recent items capacity head n := by
  rw [recent, ← List.map_take, List.take_range, Nat.min_eq_left fewer, recent]

/-- Writing at `head` puts an entry in front of the others; what the capacity does not hold
beside it is overwritten. -/
theorem recent_write (within : head < capacity) (room : count < capacity) (x : β) :
    recent (Function.update items head x) capacity ((head + 1) % capacity) (count + 1) =
      x :: recent items capacity head count := by
  have back : ∀ i < capacity, ((head + 1) % capacity + capacity - 1 - i) % capacity =
      (head + capacity - i) % capacity := by
    intro i below
    have shift : (head + 1) % capacity + capacity - 1 - i =
        (head + 1) % capacity + (capacity - 1 - i) := by
      omega
    have total : head + 1 + (capacity - 1 - i) = head + capacity - i := by
      omega
    rw [shift, Nat.mod_add_mod, total]
  rw [recent, List.range_succ_eq_map, List.map_cons, List.map_map, recent]
  congr 1
  · rw [back 0 (by omega), Nat.sub_zero, Nat.add_mod_right, Nat.mod_eq_of_lt within,
      Function.update_self]
  · apply List.map_congr_left
    intro i member
    have below : i < count := List.mem_range.mp member
    rw [Function.comp_apply, back (i + 1) (by omega), Nat.add_comm i 1, ← Nat.sub_sub]
    refine Function.update_of_ne (fun same => ?_) _ _
    -- The cells from `head` back are different ones, all the way round.
    have offset : head + capacity - 1 - i = head + (capacity - 1 - i) := by
      omega
    have start : (head + (capacity - 1 - i)) % capacity = (head + 0) % capacity := by
      rw [← offset, same, Nat.add_zero, Nat.mod_eq_of_lt within]
    have := offset_injective (by omega) (by omega) start
    omega

/-- Where the oldest entry is overwritten once the ring is full, a write puts an entry in front of
the history the ring holds the beginning of. -/
theorem recent_push {history : List β} (within : head < capacity)
    (holds : recent items capacity head count = history.take capacity) (x : β) :
    recent (Function.update items head x) capacity ((head + 1) % capacity)
        (if count < capacity then count + 1 else count) = (x :: history).take capacity := by
  have length := congrArg List.length holds
  rw [length_recent, List.length_take] at length
  obtain ⟨k, rfl⟩ : ∃ k, capacity = k + 1 := ⟨capacity - 1, by omega⟩
  rw [List.take_succ_cons]
  split
  · rename_i room
    rw [recent_write within room, holds, List.take_of_length_le (by omega),
      List.take_of_length_le (by omega)]
  · -- The ring is full: the oldest entry is overwritten.
    rename_i full
    have all : count = k + 1 := by omega
    have kept : recent items (k + 1) head k = history.take k := by
      rw [← take_recent (show k ≤ count by omega), holds, List.take_take, Nat.min_eq_left (by omega)]
    rw [all, recent_write within (by omega), kept]

/-- The last entries in the order in which they were written. -/
theorem contents_back (few : count ≤ capacity) :
    contents items capacity ((head + capacity - count) % capacity) count =
      (recent items capacity head count).reverse := by
  rw [recent, contents, ← List.map_reverse]
  apply List.ext_getElem
  · simp
  · intro i below _
    have inside : i < count := by simpa using below
    simp only [List.getElem_map, List.getElem_reverse, List.getElem_range, List.length_range]
    congr 1
    rw [Nat.mod_add_mod]
    congr 1
    omega

/-- The same cells, found by going back from the one in front of `head`. -/
theorem recent_cell {i : Nat} (below : i < capacity) :
    ((head + capacity - 1) % capacity + capacity - i) % capacity =
      (head + capacity - 1 - i) % capacity := by
  have shift : (head + capacity - 1) % capacity + capacity - i =
      (head + capacity - 1) % capacity + (capacity - i) := by
    omega
  have total : head + capacity - 1 + (capacity - i) = head + capacity - 1 - i + capacity := by
    omega
  rw [shift, Nat.mod_add_mod, total, Nat.add_mod_right]

end Miniweb.Lib.Ring
