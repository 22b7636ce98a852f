import Mathlib

/-! An array of slots that are searched in order, where a key may stand in more
than one slot and each slot in use carries the time it was written. What a slot
holds is read as nothing or as a key with its stamp. The first slot of a key is
the one a search finds; it is kept at the latest stamp of the key, or is too old
to be used. -/
namespace Miniweb.Lib.StampedSlots

variable {n : Nat} {σ K T : Type*} {read : σ → Option (K × T)} {slots : Fin n → σ}
  {k l : K} {t u : T} {i j : Fin n}

/-- The slot `i` is the first that holds `k`. -/
def First (read : σ → Option (K × T)) (slots : Fin n → σ) (k : K) (t : T) (i : Fin n) : Prop :=
  read (slots i) = some (k, t) ∧ ∀ j < i, ∀ u, read (slots j) ≠ some (k, u)

/-- The slot may be overwritten without hiding what another key still has: it is
free, it holds the key being written, or no slot in use is older. -/
def Replaceable [LE T] (read : σ → Option (K × T)) (slots : Fin n → σ) (k : K) (i : Fin n) :
    Prop :=
  ∀ l t, read (slots i) = some (l, t) →
    l = k ∨ ∀ j m u, read (slots j) = some (m, u) → t ≤ u

theorem First.unique (found : First read slots k t i) (found' : First read slots k u j) : i = j := by
  rcases lt_trichotomy i j with before | same | behind
  · exact absurd found.1 (found'.2 i before t)
  · exact same
  · exact absurd found'.1 (found.2 j behind u)

/-- The first slot of a key, once one slot has been written or freed. -/
private theorem First.of_update {slot : σ} (found : First read (Function.update slots i slot) l u j)
    (same : j ≠ i) : read (slots j) = some (l, u) ∧
      ∀ m < j, m ≠ i → ∀ v, read (slots m) ≠ some (l, v) := by
  obtain ⟨held, earlier⟩ := found
  rw [Function.update_of_ne same] at held
  refine ⟨held, fun m before other v here => ?_⟩
  apply earlier m before v
  rw [Function.update_of_ne other]
  exact here

variable [PartialOrder T] {latest latest' : K → T → Prop} {stale stale' : T → Prop}

/-- Slots of one key grow older from front to back, and the first of them has the
latest stamp of the key or is stale. -/
structure Tracks (read : σ → Option (K × T)) (slots : Fin n → σ) (latest : K → T → Prop)
    (stale : T → Prop) : Prop where
  ordered : ∀ {i j k t u}, i < j → read (slots i) = some (k, t) →
    read (slots j) = some (k, u) → u ≤ t
  first : ∀ {k t i}, First read slots k t i → latest k t ∨ stale t

theorem Tracks.empty (free : ∀ i, read (slots i) = none) : Tracks read slots latest stale where
  ordered _ held := by
    rw [free] at held
    cases held
  first found := by
    have held := found.1
    rw [free] at held
    cases held

/-- What counts as the latest stamp matters for the keys in the array only, and a
stale slot stays stale. -/
theorem Tracks.mono (tracks : Tracks read slots latest stale)
    (latestKept : ∀ i k t, read (slots i) = some (k, t) → latest k t → latest' k t)
    (staleKept : ∀ t, stale t → stale' t) : Tracks read slots latest' stale' where
  ordered := tracks.ordered
  first found := by
    rcases tracks.first found with isLatest | isStale
    · exact .inl (latestKept _ _ _ found.1 isLatest)
    · exact .inr (staleKept _ isStale)

/-- Writing a key with the latest stamp, in front of every other slot of it. -/
theorem Tracks.write (tracks : Tracks read slots latest stale) {slot : σ} {now : T}
    (written : read slot = some (k, now)) (inFront : ∀ j < i, ∀ u, read (slots j) ≠ some (k, u))
    (replaceable : Replaceable read slots k i)
    (newest : ∀ j l u, read (slots j) = some (l, u) → u ≤ now) (isLatest : latest' k now)
    (others : ∀ j l u, l ≠ k → read (slots j) = some (l, u) → latest l u → latest' l u) :
    Tracks read (Function.update slots i slot) latest' stale := by
  constructor
  · intro a b l t u before held held'
    by_cases here : a = i
    · subst here
      rw [Function.update_self, written] at held
      rw [Function.update_of_ne (ne_of_gt before)] at held'
      cases held
      exact newest b _ _ held'
    · rw [Function.update_of_ne here] at held
      by_cases here' : b = i
      · subst here'
        rw [Function.update_self, written] at held'
        cases held'
        exact absurd held (inFront a before t)
      · rw [Function.update_of_ne here'] at held'
        exact tracks.ordered before held held'
  · intro l u j found
    by_cases here : j = i
    · subst here
      have held := found.1
      rw [Function.update_self, written] at held
      cases held
      exact .inl isLatest
    · -- Another key; its first slot is either where it was, or behind the slot overwritten.
      obtain ⟨held, earlier⟩ := found.of_update here
      have other : l ≠ k := by
        rintro rfl
        rcases lt_or_gt_of_ne here with before | behind
        · exact inFront j before u held
        · apply found.2 i behind now
          rw [Function.update_self]
          exact written
      have kept : latest l u ∨ stale u := by
        by_cases hidden : ∃ t, read (slots i) = some (l, t) ∧ i < j
        · obtain ⟨t, old, behind⟩ := hidden
          have oldest := (replaceable l t old).resolve_left other
          have same : u = t := le_antisymm (tracks.ordered behind old held) (oldest j l u held)
          subst same
          exact tracks.first ⟨old, fun m before => earlier m (before.trans behind) before.ne⟩
        · apply tracks.first (i := j)
          refine ⟨held, fun m before v here' => ?_⟩
          by_cases atWritten : m = i
          · subst atWritten
            exact hidden ⟨v, here', before⟩
          · exact earlier m before atWritten v here'
      rcases kept with latestBefore | isStale
      · exact .inl (others j l u other held latestBefore)
      · exact .inr isStale

/-- Freeing the first slot of a key when it is stale: what is behind it is older. -/
theorem Tracks.free (tracks : Tracks read slots latest stale) {slot : σ} (freed : read slot = none)
    (found : First read slots k t i) (isStale : stale t)
    (olderStale : ∀ t u, u ≤ t → stale t → stale u) :
    Tracks read (Function.update slots i slot) latest stale := by
  have used {j l u} (held : read (Function.update slots i slot j) = some (l, u)) : j ≠ i := by
    rintro rfl
    rw [Function.update_self, freed] at held
    cases held
  constructor
  · intro a b l t u before held held'
    have atA := used held
    have atB := used held'
    rw [Function.update_of_ne atA] at held
    rw [Function.update_of_ne atB] at held'
    exact tracks.ordered before held held'
  · intro l u j foundAfter
    have other := used foundAfter.1
    obtain ⟨held, earlier⟩ := foundAfter.of_update other
    by_cases sameKey : l = k
    · subst sameKey
      rcases lt_or_gt_of_ne other with before | behind
      · exact absurd held (found.2 j before u)
      · exact .inr (olderStale _ _ (tracks.ordered behind found.1 held) isStale)
    · apply tracks.first (i := j)
      refine ⟨held, fun m before v here => ?_⟩
      by_cases atFreed : m = i
      · subst atFreed
        rw [found.1] at here
        cases here
        exact sameKey rfl
      · exact earlier m before atFreed v here

/-! ## Searching the array in order -/

/-- What stands in front of an index in the list of all of them. -/
theorem mem_front_iff {front rest : List (Fin n)} (split : List.finRange n = front ++ i :: rest) :
    j ∈ front ↔ j < i := by
  have sorted : (front ++ i :: rest).Pairwise (· < ·) := by
    rw [← split]
    exact List.pairwise_lt_finRange n
  obtain ⟨_, behind, across⟩ := List.pairwise_append.mp sorted
  constructor
  · intro member
    exact across j member i List.mem_cons_self
  · intro before
    have member : j ∈ front ++ i :: rest := by
      rw [← split]
      exact List.mem_finRange j
    rcases List.mem_append.mp member with inFront | inRest
    · exact inFront
    · rcases List.mem_cons.mp inRest with rfl | later
      · exact absurd before (lt_irrefl _)
      · exact absurd before (lt_asymm ((List.pairwise_cons.mp behind).1 j later))

/-- A search from the front finds the first index. -/
theorem find?_finRange_eq_some {p : Fin n → Bool}
    (found : (List.finRange n).find? p = some i) : p i = true ∧ ∀ j < i, p j = false := by
  obtain ⟨here, front, rest, split, none⟩ := List.find?_eq_some_iff_append.mp found
  refine ⟨here, fun j before => ?_⟩
  have := none j ((mem_front_iff split).mpr before)
  simpa using this

end Miniweb.Lib.StampedSlots
