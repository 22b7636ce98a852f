import Mathlib

/-! A block published behind a lock. A shared pointer leads to the block; a thread that has the
lock may copy the block, or free it and store a pointer to another one, which it made before. -/
namespace Miniweb.Lib.Published

/-- The blocks that are allocated, the shared pointer and the lock. -/
structure Shared (ι β : Type*) where
  heap : Nat → Option β := fun _ => none
  /-- Every block allocated so far is below. -/
  next : Nat := 0
  cell : Option Nat := none
  lock : Option ι := none

variable {ι β : Type*} {s : Shared ι β} {i : ι} {b : β} {p : Nat}

/-- The lock is taken by a thread. -/
def Shared.acquire (s : Shared ι β) (i : ι) : Shared ι β := { s with lock := some i }

/-- The lock is given back, whoever has it. -/
def Shared.release (s : Shared ι β) : Shared ι β := { s with lock := none }

/-- A new block, at `s.next`. -/
def Shared.alloc (s : Shared ι β) (b : β) : Shared ι β :=
  { s with heap := Function.update s.heap s.next (some b), next := s.next + 1 }

/-- The block behind the shared pointer is freed, if there is one. -/
def Shared.freeCell (s : Shared ι β) : Shared ι β :=
  match s.cell with
  | some p => { s with heap := Function.update s.heap p none }
  | none => s

/-- The shared pointer is set. -/
def Shared.store (s : Shared ι β) (block : Option Nat) : Shared ι β := { s with cell := block }

theorem heap_alloc (s : Shared ι β) (b : β) (p : Nat) :
    (s.alloc b).heap p = if p = s.next then some b else s.heap p := Function.update_apply ..

theorem heap_freeCell (s : Shared ι β) (p : Nat) :
    s.freeCell.heap p = if s.cell = some p then none else s.heap p := by
  unfold Shared.freeCell
  cases s.cell with
  | none => rfl
  | some q => simp [Function.update_apply, eq_comm]

@[simp] theorem cell_freeCell (s : Shared ι β) : s.freeCell.cell = s.cell := by
  unfold Shared.freeCell
  split <;> rfl

@[simp] theorem lock_freeCell (s : Shared ι β) : s.freeCell.lock = s.lock := by
  unfold Shared.freeCell
  split <;> rfl

@[simp] theorem next_freeCell (s : Shared ι β) : s.freeCell.next = s.next := by
  unfold Shared.freeCell
  split <;> rfl

/-! ## Where the threads stand -/

/-- What a thread is in the middle of. -/
structure Place where
  /-- It has the lock. -/
  locked : Bool := false
  /-- A block of its own. -/
  hand : Option Nat := none
  /-- It has freed the block behind the shared pointer. -/
  dangling : Bool := false
  /-- What it has read from the shared pointer. -/
  seen : Option Nat := none

/-- What holds between the steps of threads that keep to the rules below. -/
structure Sound (s : Shared ι β) (place : ι → Place) : Prop where
  owner : ∀ i, (place i).locked = true ↔ s.lock = some i
  dangling : ∀ i, (place i).dangling = true →
    (place i).locked = true ∧ ∀ p, s.cell = some p → s.heap p = none
  seen : ∀ i p, (place i).seen = some p →
    (place i).locked = true ∧ (place i).dangling = false ∧ s.cell = some p
  published : (∀ i, (place i).dangling = false) → ∀ p, s.cell = some p → (s.heap p).isSome
  held : ∀ i p, (place i).hand = some p → (s.heap p).isSome ∧ s.cell ≠ some p
  single : ∀ i j p, (place i).hand = some p → (place j).hand = some p → i = j
  fresh : ∀ p, s.next ≤ p → s.heap p = none ∧ s.cell ≠ some p
  kept : ∀ p, (s.heap p).isSome → s.cell = some p ∨ ∃ i, (place i).hand = some p

variable {place : ι → Place}

theorem sound_start : Sound ({} : Shared ι β) fun _ => {} where
  owner i := by simp
  dangling i := by simp
  seen i p := by simp
  published _ p := by simp
  held i p := by simp
  single i j p := by simp
  fresh p := by simp
  kept p := by simp

/-- Whoever does not have the lock is not in the middle of anything. -/
theorem Sound.away (sound : Sound s place) (unlocked : (place i).locked = false) :
    (place i).dangling = false ∧ (place i).seen = none := by
  refine ⟨Bool.eq_false_iff.mpr fun dangling => ?_, Option.eq_none_iff_forall_ne_some.mpr fun p seen => ?_⟩
  · simpa [unlocked] using (sound.dangling i dangling).1
  · simpa [unlocked] using (sound.seen i p seen).1

/-- Two threads do not have the lock. -/
theorem Sound.one_locked {j : ι} (sound : Sound s place) (locked : (place i).locked = true)
    (other : j ≠ i) : (place j).locked = false :=
  Bool.eq_false_iff.mpr fun second =>
    other (Option.some.inj (((sound.owner j).mp second).symm.trans ((sound.owner i).mp locked)))

/-- While a thread has the lock and has freed nothing, the pointer leads to a block. -/
theorem Sound.live_cell (sound : Sound s place) (locked : (place i).locked = true)
    (whole : (place i).dangling = false) (cell : s.cell = some p) : (s.heap p).isSome := by
  refine sound.published (fun j => ?_) p cell
  by_cases same : j = i
  · rw [same]
    exact whole
  · exact (sound.away (sound.one_locked locked same)).1

/-- What a thread has read from the pointer leads to a block. -/
theorem Sound.live_seen (sound : Sound s place) (seen : (place i).seen = some p) :
    (s.heap p).isSome := by
  obtain ⟨locked, whole, cell⟩ := sound.seen i p seen
  exact sound.live_cell locked whole cell

/-! ## The rules

One thread moves, to the place `here`. -/

section Rules

variable [DecidableEq ι] {t : Shared ι β} {here : Place}

/-- A property of one thread after the move. -/
private theorem at_place {P : ι → Place → Prop} (moved : P i here)
    (others : ∀ j, j ≠ i → P j (place j)) (j : ι) : P j (Function.update place i here j) := by
  by_cases same : j = i
  · subst same
    rw [Function.update_self]
    exact moved
  · rw [Function.update_of_ne same]
    exact others j same

/-- A thread that has the lock, and keeps it, may change the pointer and the heap: in the end
the pointer leads to a block unless the thread has just freed it, and every other block is in one
hand. -/
theorem Sound.inside (sound : Sound s place) (locked : (place i).locked = true)
    (lock : t.lock = s.lock) (keeps : here.locked = true)
    (seen : ∀ p, here.seen = some p → here.dangling = false ∧ t.cell = some p)
    (published : here.dangling = false → ∀ p, t.cell = some p → (t.heap p).isSome)
    (gone : here.dangling = true → ∀ p, t.cell = some p → t.heap p = none)
    (own : ∀ p, here.hand = some p →
      (t.heap p).isSome ∧ t.cell ≠ some p ∧ ∀ j, j ≠ i → (place j).hand ≠ some p)
    (held : ∀ j, j ≠ i → ∀ p, (place j).hand = some p → (t.heap p).isSome ∧ t.cell ≠ some p)
    (fresh : ∀ p, t.next ≤ p → t.heap p = none ∧ t.cell ≠ some p)
    (kept : ∀ p, (t.heap p).isSome →
      t.cell = some p ∨ here.hand = some p ∨ ∃ j, j ≠ i ∧ (place j).hand = some p) :
    Sound t (Function.update place i here) where
  owner := at_place (P := fun j place => place.locked = true ↔ t.lock = some j)
    (by rw [keeps, lock]; exact ⟨fun _ => (sound.owner i).mp locked, fun _ => rfl⟩)
    (fun j _ => by rw [lock]; exact sound.owner j)
  dangling := at_place
    (P := fun _ place => place.dangling = true →
      place.locked = true ∧ ∀ p, t.cell = some p → t.heap p = none)
    (fun dangling => ⟨keeps, gone dangling⟩)
    (fun j other dangling => by
      rw [(sound.away (sound.one_locked locked other)).1] at dangling
      cases dangling)
  seen := at_place
    (P := fun _ place => ∀ p, place.seen = some p →
      place.locked = true ∧ place.dangling = false ∧ t.cell = some p)
    (fun p read => ⟨keeps, seen p read⟩)
    (fun j other p read => by
      rw [(sound.away (sound.one_locked locked other)).2] at read
      cases read)
  published whole := published (by simpa using whole i)
  held := at_place
    (P := fun _ place => ∀ p, place.hand = some p → (t.heap p).isSome ∧ t.cell ≠ some p)
    (fun p hand => ⟨(own p hand).1, (own p hand).2.1⟩) held
  single := by
    intro j k p first second
    by_cases left : j = i
    · by_cases right : k = i
      · rw [left, right]
      · rw [left, Function.update_self] at first
        rw [Function.update_of_ne right] at second
        exact absurd second ((own p first).2.2 k right)
    · rw [Function.update_of_ne left] at first
      by_cases right : k = i
      · rw [right, Function.update_self] at second
        exact absurd first ((own p second).2.2 j left)
      · rw [Function.update_of_ne right] at second
        exact sound.single j k p first second
  fresh := fresh
  kept p live := by
    rcases kept p live with cell | hand | ⟨j, other, hand⟩
    · exact .inl cell
    · exact .inr ⟨i, by rw [Function.update_self]; exact hand⟩
    · exact .inr ⟨j, by rw [Function.update_of_ne other]; exact hand⟩

/-- A thread moves on where nothing of this is concerned. -/
theorem Sound.stay (sound : Sound s place) (same : here = place i) :
    Sound s (Function.update place i here) := by
  rw [same, Function.update_eq_self]
  exact sound

/-- A thread takes the lock when nobody has it. -/
theorem Sound.acquire (sound : Sound s place) (free : s.lock = none)
    (entered : here = { place i with locked := true }) :
    Sound (s.acquire i) (Function.update place i here) := by
  have unlocked : ∀ j, (place j).locked = false := fun j =>
    Bool.eq_false_iff.mpr fun locked => by simpa [free] using (sound.owner j).mp locked
  have hands : ∀ j, (Function.update place i here j).hand = (place j).hand :=
    at_place (P := fun j here => here.hand = (place j).hand) (by rw [entered]) fun j _ => rfl
  subst entered
  refine ⟨?_, ?_, ?_, fun _ => sound.published fun j => (sound.away (unlocked j)).1, ?_, ?_,
    sound.fresh, ?_⟩
  · exact at_place (P := fun j here => here.locked = true ↔ some i = some j) (by simp)
      fun j other => by simp [unlocked j, Ne.symm other]
  · exact at_place
      (P := fun _ here => here.dangling = true →
        here.locked = true ∧ ∀ p, s.cell = some p → s.heap p = none)
      (fun dangling => by simp [(sound.away (unlocked i)).1] at dangling) fun j _ => sound.dangling j
  · exact at_place
      (P := fun _ here => ∀ p, here.seen = some p →
        here.locked = true ∧ here.dangling = false ∧ s.cell = some p)
      (fun p read => by simp [(sound.away (unlocked i)).2] at read) fun j _ => sound.seen j
  · intro j p hand
    rw [hands] at hand
    exact sound.held j p hand
  · intro j k p first second
    rw [hands] at first second
    exact sound.single j k p first second
  · intro p live
    rcases sound.kept p live with cell | ⟨j, hand⟩
    · exact .inl cell
    · exact .inr ⟨j, by rw [hands]; exact hand⟩

/-- The thread that has the lock gives it back, when the pointer leads to a block again. -/
theorem Sound.release (sound : Sound s place) (locked : (place i).locked = true)
    (whole : (place i).dangling = false) (left : here = { hand := (place i).hand }) :
    Sound s.release (Function.update place i here) := by
  have away := fun j (other : j ≠ i) => sound.away (sound.one_locked locked other)
  have hands : ∀ j, (Function.update place i here j).hand = (place j).hand :=
    at_place (P := fun j here => here.hand = (place j).hand) (by rw [left]) fun j _ => rfl
  subst left
  refine ⟨?_, ?_, ?_, fun _ p cell => sound.live_cell locked whole cell, ?_, ?_, sound.fresh, ?_⟩
  · exact at_place (P := fun j here => here.locked = true ↔ none = some j) (by simp)
      fun j other => by simp [sound.one_locked locked other]
  · exact at_place
      (P := fun _ here => here.dangling = true →
        here.locked = true ∧ ∀ p, s.cell = some p → s.heap p = none)
      (fun dangling => by cases dangling) fun j _ => sound.dangling j
  · exact at_place
      (P := fun _ here => ∀ p, here.seen = some p →
        here.locked = true ∧ here.dangling = false ∧ s.cell = some p)
      (fun p read => by cases read) fun j _ => sound.seen j
  · intro j p hand
    rw [hands] at hand
    exact sound.held j p hand
  · intro j k p first second
    rw [hands] at first second
    exact sound.single j k p first second
  · intro p live
    rcases sound.kept p live with cell | ⟨j, hand⟩
    · exact .inl cell
    · exact .inr ⟨j, by rw [hands]; exact hand⟩

/-- A thread that has no block of its own makes one. -/
theorem Sound.alloc (sound : Sound s place) (b : β) (empty : (place i).hand = none)
    (made : here = { place i with hand := some s.next }) :
    Sound (s.alloc b) (Function.update place i here) := by
  have new := sound.fresh s.next le_rfl
  have live : ∀ p, (s.heap p).isSome → ((s.alloc b).heap p).isSome := by
    intro p live
    rw [heap_alloc]
    split
    · rfl
    · exact live
  have other : ∀ j p, (place j).hand = some p → p ≠ s.next := by
    rintro j p hand rfl
    have held := (sound.held j _ hand).1
    rw [new.1] at held
    cases held
  subst made
  refine ⟨?_, ?_, ?_, fun whole p cell => ?_, ?_, ?_, ?_, ?_⟩
  · exact at_place (P := fun j here => here.locked = true ↔ s.lock = some j) (sound.owner i)
      fun j _ => sound.owner j
  · have gone : ∀ j, (place j).dangling = true →
        (place j).locked = true ∧ ∀ p, s.cell = some p → (s.alloc b).heap p = none := by
      intro j dangling
      obtain ⟨locked, freed⟩ := sound.dangling j dangling
      refine ⟨locked, fun p cell => ?_⟩
      rw [heap_alloc, if_neg (fun same => new.2 (by rw [← same]; exact cell))]
      exact freed p cell
    exact at_place
      (P := fun _ here => here.dangling = true →
        here.locked = true ∧ ∀ p, s.cell = some p → (s.alloc b).heap p = none)
      (gone i) fun j _ => gone j
  · exact at_place
      (P := fun _ here => ∀ p, here.seen = some p →
        here.locked = true ∧ here.dangling = false ∧ s.cell = some p)
      (sound.seen i) fun j _ => sound.seen j
  · refine live p (sound.published (fun j => ?_) p cell)
    have here := whole j
    by_cases same : j = i
    · rw [same, Function.update_self] at here
      rw [same]
      exact here
    · rw [Function.update_of_ne same] at here
      exact here
  · refine at_place
      (P := fun _ here => ∀ p, here.hand = some p → ((s.alloc b).heap p).isSome ∧ s.cell ≠ some p)
      (fun p hand => ?_) fun j _ p hand => ⟨live p (sound.held j p hand).1, (sound.held j p hand).2⟩
    cases hand
    exact ⟨by simp [heap_alloc], new.2⟩
  · intro j k p first second
    by_cases left : j = i
    · by_cases right : k = i
      · rw [left, right]
      · rw [left, Function.update_self] at first
        rw [Function.update_of_ne right] at second
        exact absurd (Option.some.inj first).symm (other k p second)
    · rw [Function.update_of_ne left] at first
      by_cases right : k = i
      · rw [right, Function.update_self] at second
        exact absurd (Option.some.inj second).symm (other j p first)
      · rw [Function.update_of_ne right] at second
        exact sound.single j k p first second
  · intro p above
    have below : s.next ≤ p := Nat.le_of_succ_le above
    refine ⟨?_, (sound.fresh p below).2⟩
    rw [heap_alloc, if_neg (fun same => by
      rw [same] at above
      exact absurd above (Nat.not_succ_le_self _))]
    exact (sound.fresh p below).1
  · intro p lives
    by_cases same : p = s.next
    · exact .inr ⟨i, by rw [Function.update_self, same]⟩
    · rw [heap_alloc, if_neg same] at lives
      rcases sound.kept p lives with cell | ⟨j, hand⟩
      · exact .inl cell
      · refine .inr ⟨j, ?_⟩
        rw [Function.update_of_ne]
        · exact hand
        · rintro rfl
          rw [empty] at hand
          cases hand

/-- The thread that has the lock frees the block behind the pointer. -/
theorem Sound.freeCell (sound : Sound s place) (locked : (place i).locked = true)
    (freed : here = { place i with dangling := true, seen := none }) :
    Sound s.freeCell (Function.update place i here) := by
  have own : ∀ j p, (place j).hand = some p → (s.freeCell.heap p).isSome ∧ s.cell ≠ some p := by
    intro j p hand
    have held := sound.held j p hand
    rw [heap_freeCell, if_neg held.2]
    exact held
  subst freed
  refine sound.inside locked (lock_freeCell s) locked (fun p seen => by cases seen)
    (fun whole => by cases whole) (fun _ p cell => ?_) (fun p hand => ?_) (fun j _ p hand => ?_)
    (fun p above => ?_) (fun p lives => ?_)
  · rw [cell_freeCell] at cell
    rw [heap_freeCell, if_pos cell]
  · rw [cell_freeCell]
    exact ⟨(own i p hand).1, (own i p hand).2, fun j other second =>
      other (sound.single j i p second hand)⟩
  · rw [cell_freeCell]
    exact own j p hand
  · rw [next_freeCell] at above
    rw [heap_freeCell, cell_freeCell, (sound.fresh p above).1]
    exact ⟨ite_self _, (sound.fresh p above).2⟩
  · rw [heap_freeCell] at lives
    by_cases cell : s.cell = some p
    · rw [if_pos cell] at lives
      cases lives
    · rw [if_neg cell] at lives
      rcases sound.kept p lives with published | ⟨j, hand⟩
      · exact absurd published cell
      · by_cases same : j = i
        · exact .inr (.inl (by rw [← same]; exact hand))
        · exact .inr (.inr ⟨j, same, hand⟩)

/-- The thread that has freed the block stores what it has, a block or nothing. -/
theorem Sound.store (sound : Sound s place) (dangling : (place i).dangling = true) :
    Sound (s.store (place i).hand) (Function.update place i { locked := true }) := by
  obtain ⟨locked, gone⟩ := sound.dangling i dangling
  refine sound.inside locked rfl rfl (fun p seen => by cases seen)
    (fun _ p cell => (sound.held i p cell).1) (fun dangling => by cases dangling)
    (fun p hand => by cases hand)
    (fun j other p hand => ⟨(sound.held j p hand).1, fun cell => ?_⟩) (fun p above => ?_)
    (fun p lives => ?_)
  · exact other (sound.single j i p hand cell)
  · refine ⟨(sound.fresh p above).1, fun cell => ?_⟩
    have own := (sound.held i p cell).1
    rw [(sound.fresh p above).1] at own
    cases own
  · change (s.heap p).isSome at lives
    rcases sound.kept p lives with cell | ⟨j, hand⟩
    · rw [gone p cell] at lives
      cases lives
    · by_cases same : j = i
      · exact .inl (by rw [← same]; exact hand)
      · exact .inr (.inr ⟨j, same, hand⟩)

/-- The thread that has the lock reads the pointer. -/
theorem Sound.read (sound : Sound s place) (locked : (place i).locked = true)
    (whole : (place i).dangling = false) (seen : here = { place i with seen := s.cell }) :
    Sound s (Function.update place i here) := by
  subst seen
  refine sound.inside locked rfl locked (fun p read => ⟨whole, read⟩)
    (fun _ p cell => sound.live_cell locked whole cell)
    (fun dangling => (sound.dangling i dangling).2) (fun p hand => ?_)
    (fun j _ p hand => sound.held j p hand) sound.fresh (fun p lives => ?_)
  · exact ⟨(sound.held i p hand).1, (sound.held i p hand).2, fun j other second =>
      other (sound.single j i p second hand)⟩
  · rcases sound.kept p lives with cell | ⟨j, hand⟩
    · exact .inl cell
    · by_cases same : j = i
      · exact .inr (.inl (by rw [← same]; exact hand))
      · exact .inr (.inr ⟨j, same, hand⟩)

/-- And forgets it. -/
theorem Sound.forget (sound : Sound s place) (locked : (place i).locked = true)
    (forgotten : here = { place i with seen := none }) :
    Sound s (Function.update place i here) := by
  subst forgotten
  refine sound.inside locked rfl locked (fun p read => by cases read)
    (fun whole p cell => sound.live_cell locked whole cell)
    (fun dangling => (sound.dangling i dangling).2) (fun p hand => ?_)
    (fun j _ p hand => sound.held j p hand) sound.fresh (fun p lives => ?_)
  · exact ⟨(sound.held i p hand).1, (sound.held i p hand).2, fun j other second =>
      other (sound.single j i p second hand)⟩
  · rcases sound.kept p lives with cell | ⟨j, hand⟩
    · exact .inl cell
    · by_cases same : j = i
      · exact .inr (.inl (by rw [← same]; exact hand))
      · exact .inr (.inr ⟨j, same, hand⟩)

end Rules

end Miniweb.Lib.Published
