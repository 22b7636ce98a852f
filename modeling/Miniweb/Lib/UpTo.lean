import Mathlib

/-! The front of a list that ends with the `n`-th element that counts: what a loop has gone
through that stops when it has found so many. -/
namespace Miniweb.Lib.UpTo

variable {α β σ : Type*} {counts : α → Bool} {n : Nat}

/-- The elements up to the `n`-th that counts. -/
def upTo (counts : α → Bool) : Nat → List α → List α
  | 0, _ => []
  | _, [] => []
  | n + 1, x :: xs => x :: upTo counts (if counts x then n else n + 1) xs

@[simp] theorem upTo_nil (counts : α → Bool) (n : Nat) : upTo counts n [] = [] := by
  cases n <;> rfl

theorem mem_upTo_head (counts : α → Bool) (n : Nat) (x : α) (xs : List α) :
    x ∈ upTo counts (n + 1) (x :: xs) :=
  List.mem_cons_self

theorem mem_upTo_tail {x y : α} {xs : List α} (passes : counts x = false)
    (member : y ∈ upTo counts (n + 1) xs) : y ∈ upTo counts (n + 1) (x :: xs) := by
  rw [upTo, if_neg (by simp [passes])]
  exact List.mem_cons_of_mem _ member

/-- Where none counts, that is all of the list. -/
theorem upTo_of_passes {xs : List α} (passes : ∀ x ∈ xs, counts x = false) :
    upTo counts (n + 1) xs = xs := by
  induction xs with
  | nil => rfl
  | cons x xs ih =>
    obtain ⟨here, later⟩ := List.forall_mem_cons.mp passes
    rw [upTo, if_neg (by simp [here]), ih later]

/-- The first `n` that are found. -/
theorem filterMap_upTo (f : α → Option β) (n : Nat) (xs : List α) :
    (upTo (fun x => (f x).isSome) n xs).filterMap f = (xs.filterMap f).take n := by
  induction xs generalizing n with
  | nil => simp
  | cons x xs ih =>
    cases n with
    | zero => rfl
    | succ n =>
      rw [upTo, List.filterMap_cons, List.filterMap_cons, ih]
      cases f x with
      | none => rfl
      | some y => rfl

/-- A loop that goes on while there is room, of which each element that counts takes some, has
gone through the front of the list. -/
theorem foldl_while {step : σ → α → σ} {room : σ → Nat}
    (takes : ∀ s x, 0 < room s → room (step s x) = if counts x then room s - 1 else room s)
    (s : σ) (xs : List α) :
    xs.foldl (fun s x => if 0 < room s then step s x else s) s =
      (upTo counts (room s) xs).foldl step s := by
  induction xs generalizing s with
  | nil => simp
  | cons x xs ih =>
    rw [List.foldl_cons, ih]
    cases left : room s with
    | zero =>
      rw [if_neg (by omega), left]
      cases xs <;> rfl
    | succ n =>
      rw [if_pos (by omega), upTo, List.foldl_cons, takes s x (by omega), left, Nat.add_sub_cancel]

/-- What is found last. -/
theorem foldl_last (get : σ → β) (f : α → Option β) {step : σ → α → σ}
    (kept : ∀ s x, get (step s x) = (f x).getD (get s)) (s : σ) (xs : List α) :
    get (xs.foldl step s) = (xs.filterMap f).getLast?.getD (get s) := by
  induction xs generalizing s with
  | nil => rfl
  | cons x xs ih =>
    rw [List.foldl_cons, ih, kept, List.filterMap_cons]
    cases f x with
    | none => rfl
    | some y => simp [List.getLast?_cons]

/-- All that is found. -/
theorem foldl_all (get : σ → List β) (f : α → Option β) {step : σ → α → σ}
    (kept : ∀ s x, get (step s x) = get s ++ (f x).toList) (s : σ) (xs : List α) :
    get (xs.foldl step s) = get s ++ xs.filterMap f := by
  induction xs generalizing s with
  | nil => simp
  | cons x xs ih =>
    rw [List.foldl_cons, ih, kept, List.filterMap_cons]
    cases f x with
    | none => simp
    | some y => simp

end Miniweb.Lib.UpTo
