import Mathlib

/-! Bubble sort by a key, the greatest first, and what it computes: the one list in which the
keys descend and the elements of each key keep their order. The beginning of it can be found
by sorting the beginning of the list only where nothing behind it has a greater key. -/
namespace Miniweb.Lib.BubbleSort

variable {α κ : Type} [LinearOrder κ] {key : α → κ} {a b : α} {l l' s s' rest : List α} {n k : ℕ}

/-- The inner loop: so many comparisons of neighbours from the front on, each of which moves the
lesser key back. -/
def pass (key : α → κ) : ℕ → List α → List α
  | 0, l => l
  | _ + 1, [] => []
  | _ + 1, [a] => [a]
  | k + 1, a :: b :: rest =>
    if key a < key b then b :: pass key k (a :: rest) else a :: pass key k (b :: rest)

/-- The outer loop: passes of `k` comparisons, then of fewer and fewer. -/
def passes (key : α → κ) : ℕ → List α → List α
  | 0, l => l
  | k + 1, l => passes key k (pass key (k + 1) l)

/-- Bubble sort: the first pass compares all neighbours. -/
def bubbleSort (key : α → κ) (l : List α) : List α := passes key (l.length - 1) l

/-- `s` is `l` in the order of the keys: they descend, and elements with the same key stand as
they did. -/
structure Ranked (key : α → κ) (l s : List α) : Prop where
  descending : s.Pairwise fun a b => key b ≤ key a
  ties : ∀ v, s.filter (key · = v) = l.filter (key · = v)

/-! ## There is one such order -/

/-- Elements with the same keys in the same order are the same elements. -/
theorem perm_of_ties (ties : ∀ v, s.filter (key · = v) = l.filter (key · = v)) : s.Perm l := by
  classical
  rw [List.perm_iff_count]
  intro a
  have here := congrArg (List.count a) (ties (key a))
  rwa [List.count_filter (by simp), List.count_filter (by simp)] at here

theorem Ranked.perm (ranked : Ranked key l s) : s.Perm l := perm_of_ties ranked.ties

/-- The first element of an order is the first one with the greatest key. -/
theorem ranked_unique (ranked : Ranked key l s) (ranked' : Ranked key l s') : s = s' := by
  induction s generalizing l s' with
  | nil =>
    have empty : l = [] := by simpa using ranked.perm.symm
    rw [empty] at ranked'
    have := ranked'.perm
    simpa using this.symm
  | cons a rest ih =>
    cases s' with
    | nil =>
      have empty : l = [] := by simpa using ranked'.perm.symm
      rw [empty] at ranked
      simpa using ranked.perm
    | cons b rest' =>
      have both := ranked.perm.trans ranked'.perm.symm
      obtain ⟨below, descending⟩ := List.pairwise_cons.mp ranked.descending
      obtain ⟨below', descending'⟩ := List.pairwise_cons.mp ranked'.descending
      have greatest : key a = key b := by
        apply le_antisymm
        · rcases List.mem_cons.mp (both.subset List.mem_cons_self) with rfl | later
          · exact le_rfl
          · exact below' a later
        · rcases List.mem_cons.mp (both.symm.subset List.mem_cons_self) with rfl | later
          · exact le_rfl
          · exact below b later
      have firsts := (ranked.ties (key a)).trans (ranked'.ties (key a)).symm
      rw [List.filter_cons_of_pos (by simp), List.filter_cons_of_pos (by simp [greatest])] at firsts
      obtain ⟨rfl, _⟩ := List.cons.inj firsts
      have rests (v : κ) : rest.filter (key · = v) = rest'.filter (key · = v) := by
        have here := (ranked.ties v).trans (ranked'.ties v).symm
        by_cases own : key a = v
        · rw [List.filter_cons_of_pos (by simp [own]), List.filter_cons_of_pos (by simp [own])] at here
          exact List.tail_eq_of_cons_eq here
        · rwa [List.filter_cons_of_neg (by simp [own]), List.filter_cons_of_neg (by simp [own])] at here
      rw [ih (l := rest) ⟨descending, fun _ => rfl⟩ ⟨descending', fun v => (rests v).symm⟩]

/-! ## Bubble sort finds it -/

/-- Two neighbours are exchanged only when their keys differ. -/
theorem ties_pass (k : ℕ) (l : List α) (v : κ) :
    (pass key k l).filter (key · = v) = l.filter (key · = v) := by
  induction k, l using pass.induct key with
  | case1 l => rfl
  | case2 k => rfl
  | case3 k a => rfl
  | case4 k a b rest less ih =>
    rw [pass, if_pos less, List.filter_cons, ih, List.filter_cons, List.filter_cons, List.filter_cons]
    by_cases first : key a = v
    · have second : key b ≠ v := fun same => absurd (first.trans same.symm) less.ne
      simp [first, second]
    · simp [first]
  | case5 k a b rest notLess ih =>
    rw [pass, if_neg notLess, ← List.singleton_append, List.filter_append, ih, ← List.filter_append]
    rfl

theorem ties_passes (k : ℕ) (l : List α) (v : κ) :
    (passes key k l).filter (key · = v) = l.filter (key · = v) := by
  induction k generalizing l with
  | zero => rfl
  | succ k ih => rw [passes, ih, ties_pass]

/-- A pass moves an element with the least key to the place behind its comparisons. -/
theorem pass_moves_least (key : α → κ) {front : List α} (length : front.length = k + 1)
    (suffix : List α) :
    ∃ front' least, pass key k (front ++ suffix) = front' ++ least :: suffix ∧
      front'.length = k ∧ (∀ x ∈ front', key least ≤ key x) ∧ (front' ++ [least]).Perm front := by
  induction k generalizing front with
  | zero =>
    obtain ⟨a, rfl⟩ := List.length_eq_one_iff.mp length
    exact ⟨[], a, rfl, rfl, by simp, List.Perm.refl _⟩
  | succ k ih =>
    match front with
    | [] => simp at length
    | [a] => simp at length
    | a :: b :: rest =>
      -- the greater of the two stays in front, the pass goes on with the other
      have onward (x y : α) (below : key x ≤ key y) (perm : (y :: x :: rest).Perm (a :: b :: rest)) :
          ∃ front' least, y :: pass key k (x :: rest ++ suffix) = front' ++ least :: suffix ∧
            front'.length = k + 1 ∧ (∀ z ∈ front', key least ≤ key z) ∧
            (front' ++ [least]).Perm (a :: b :: rest) := by
        obtain ⟨front', least, done, length', below', perm'⟩ :=
          ih (show (x :: rest).length = k + 1 by simpa using length)
        refine ⟨y :: front', least, by rw [done]; rfl, by simp [length'], ?_, ?_⟩
        · intro z member
          rcases List.mem_cons.mp member with rfl | later
          · refine le_trans ?_ below
            rcases List.mem_append.mp (perm'.symm.subset List.mem_cons_self) with early | last
            · exact below' x early
            · exact (congrArg key (List.mem_singleton.mp last)).ge
          · exact below' z later
        · exact (perm'.cons y).trans perm
      rw [List.cons_append, List.cons_append, pass]
      split
      · rename_i less
        exact onward a b less.le (List.Perm.swap _ _ _)
      · rename_i notLess
        exact onward b a (not_lt.mp notLess) (List.Perm.refl _)

/-- So many elements are left in front of those that are in their places. -/
def Settled (key : α → κ) (k : ℕ) (l : List α) : Prop :=
  ∃ front suffix, l = front ++ suffix ∧ front.length = k + 1 ∧
    suffix.Pairwise (fun a b => key b ≤ key a) ∧ ∀ a ∈ front, ∀ b ∈ suffix, key b ≤ key a

/-- Each pass puts one more in its place. -/
theorem Settled.pass (settled : Settled key (k + 1) l) : Settled key k (pass key (k + 1) l) := by
  obtain ⟨front, suffix, rfl, length, descending, across⟩ := settled
  obtain ⟨front', least, done, length', below, perm⟩ :=
    pass_moves_least key length suffix
  refine ⟨front', least :: suffix, done, length', ?_, ?_⟩
  · exact List.pairwise_cons.mpr ⟨across least (perm.subset (by simp)), descending⟩
  · rintro a early b (_ | ⟨_, later⟩)
    · exact below a early
    · exact across a (perm.subset (List.mem_append_left _ early)) b later

theorem Settled.passes (settled : Settled key k l) :
    (passes key k l).Pairwise fun a b => key b ≤ key a := by
  induction k generalizing l with
  | zero =>
    obtain ⟨front, suffix, rfl, length, descending, across⟩ := settled
    obtain ⟨a, rfl⟩ := List.length_eq_one_iff.mp length
    exact List.pairwise_cons.mpr ⟨across a List.mem_cons_self, descending⟩
  | succ k ih => exact ih settled.pass

theorem bubbleSort_ranked (key : α → κ) (l : List α) : Ranked key l (bubbleSort key l) := by
  refine ⟨?_, ties_passes _ l⟩
  cases l with
  | nil => exact List.Pairwise.nil
  | cons a rest =>
    have start : Settled key rest.length (a :: rest) :=
      ⟨a :: rest, [], by simp, rfl, List.Pairwise.nil, by simp⟩
    exact start.passes

/-! ## The beginning of it -/

/-- An order of a list whose beginning has the greatest keys is one order behind another. -/
theorem ranked_append (ranked : Ranked key l s) (ranked' : Ranked key l' s')
    (above : ∀ a ∈ l, ∀ b ∈ l', key b ≤ key a) : Ranked key (l ++ l') (s ++ s') := by
  refine ⟨List.pairwise_append.mpr ⟨ranked.descending, ranked'.descending, ?_⟩, fun v => ?_⟩
  · exact fun a early b later => above a (ranked.perm.subset early) b (ranked'.perm.subset later)
  · rw [List.filter_append, List.filter_append, ranked.ties, ranked'.ties]

/-- Sorting the first elements gives the first of the sorted ones exactly when none of the others
has a greater key than one of them. -/
theorem bubbleSort_take_iff (key : α → κ) (l : List α) (n : ℕ) :
    bubbleSort key (l.take n) = (bubbleSort key l).take n ↔
      ∀ a ∈ l.take n, ∀ b ∈ l.drop n, key b ≤ key a := by
  have early := bubbleSort_ranked key (l.take n)
  have whole := bubbleSort_ranked key l
  have length : (bubbleSort key (l.take n)).length = min n l.length := by
    rw [early.perm.length_eq, List.length_take]
  constructor
  · intro same a first b later
    have others : ((bubbleSort key l).drop n).Perm (l.drop n) := by
      have parts := whole.perm
      rw [← List.take_append_drop n (bubbleSort key l), ← same] at parts
      rw [← List.perm_append_left_iff (bubbleSort key (l.take n))]
      refine parts.trans ?_
      conv_lhs => rw [← List.take_append_drop n l]
      exact early.perm.symm.append_right _
    have sorted := whole.descending
    rw [← List.take_append_drop n (bubbleSort key l)] at sorted
    exact (List.pairwise_append.mp sorted).2.2 a (same ▸ early.perm.symm.subset first) b
      (others.symm.subset later)
  · intro above
    have both := ranked_append early (bubbleSort_ranked key (l.drop n)) above
    rw [List.take_append_drop] at both
    by_cases less : n ≤ l.length
    · rw [ranked_unique whole both, List.take_left' (by omega)]
    · have all : (bubbleSort key l).length ≤ n := by
        rw [whole.perm.length_eq]
        omega
      rw [List.take_of_length_le (by omega), List.take_of_length_le all]

end Miniweb.Lib.BubbleSort
