import Mathlib

/-! A finite map kept in an array of `n` slots, in no order and with holes. What
a slot holds is read as nothing or as a key with a value; the array represents a
map when the slots in use have distinct keys and hold exactly the map's entries. -/
namespace Miniweb.Lib.SlotTable

variable {n : Nat} {σ K V : Type*} {read : σ → Option (K × V)} {slots : Fin n → σ}
  {m : K → Option V} {k : K} {v : V} {i : Fin n}

/-- The slots hold the entries of the map, each once. -/
structure Represents (read : σ → Option (K × V)) (slots : Fin n → σ) (m : K → Option V) :
    Prop where
  distinct : ∀ {i j k v w}, read (slots i) = some (k, v) → read (slots j) = some (k, w) → i = j
  entry_iff : ∀ {k v}, m k = some v ↔ ∃ i, read (slots i) = some (k, v)

/-- The number of keys. -/
noncomputable def size (m : K → Option V) : Nat := {k | (m k).isSome}.ncard

theorem Represents.empty (free : ∀ i, read (slots i) = none) :
    Represents read slots fun _ => none where
  distinct held := by
    rw [free] at held
    cases held
  entry_iff := by simp [free]

theorem Represents.lookup (represents : Represents read slots m)
    (held : read (slots i) = some (k, v)) : m k = some v :=
  represents.entry_iff.mpr ⟨i, held⟩

theorem Represents.absent_iff (represents : Represents read slots m) :
    m k = none ↔ ∀ i v, read (slots i) ≠ some (k, v) := by
  constructor
  · intro absent i v held
    rw [represents.lookup held] at absent
    cases absent
  · intro unused
    apply Option.eq_none_iff_forall_ne_some.mpr
    intro v present
    obtain ⟨i, held⟩ := represents.entry_iff.mp present
    exact unused i v held

/-- The slots in use are as many as the keys. -/
private theorem Represents.size_eq (represents : Represents read slots m) :
    {i | (read (slots i)).isSome}.ncard = size m := by
  refine Set.ncard_congr (fun i used => ((read (slots i)).get used).1) ?_ ?_ ?_
  · intro i used
    obtain ⟨⟨k, v⟩, held⟩ := Option.isSome_iff_exists.mp used
    simp only [held, Option.get_some, Set.mem_ofPred_eq]
    rw [represents.lookup held]
    rfl
  · intro i j used used' same
    obtain ⟨⟨k, v⟩, held⟩ := Option.isSome_iff_exists.mp used
    obtain ⟨⟨l, w⟩, held'⟩ := Option.isSome_iff_exists.mp used'
    simp only [held, held', Option.get_some] at same
    subst same
    exact represents.distinct held held'
  · intro k present
    obtain ⟨v, present⟩ := Option.isSome_iff_exists.mp present
    obtain ⟨i, held⟩ := represents.entry_iff.mp present
    exact ⟨i, by simp [held], by simp [held]⟩

theorem Represents.size_le (represents : Represents read slots m) : size m ≤ n := by
  rw [← represents.size_eq]
  simpa using Set.ncard_le_card {i | (read (slots i)).isSome}

/-- There is a free slot as long as the map has fewer keys than slots. -/
theorem Represents.exists_free_iff (represents : Represents read slots m) :
    (∃ i, read (slots i) = none) ↔ size m < n := by
  rw [← represents.size_eq]
  constructor
  · rintro ⟨i, free⟩
    have missing : {i | (read (slots i)).isSome} ≠ Set.univ := by
      intro all
      have : i ∈ {i | (read (slots i)).isSome} := all ▸ Set.mem_univ i
      simp [free] at this
    have smaller := Set.ncard_lt_ncard (Set.ssubset_univ_iff.mpr missing)
    simpa using smaller
  · intro smaller
    by_contra full
    have all : {i | (read (slots i)).isSome} = Set.univ := by
      apply Set.eq_univ_of_forall
      intro i
      exact Option.isSome_iff_ne_none.mpr fun free => full ⟨i, free⟩
    rw [all] at smaller
    simp at smaller

/-- A slot may be written for a key when it holds that key, or when it is free
and no slot holds the key. -/
def WritableFor (read : σ → Option (K × V)) (slots : Fin n → σ) (m : K → Option V) (i : Fin n)
    (k : K) : Prop :=
  (∃ v, read (slots i) = some (k, v)) ∨ (read (slots i) = none ∧ m k = none)

variable [DecidableEq K] {slot : σ}

/-- Insertion, replacement and removal are one: the slot is written, and the map
changes at its key. -/
theorem Represents.update (represents : Represents read slots m)
    (writable : WritableFor read slots m i k) {value : Option V}
    (written : read slot = value.map (k, ·)) :
    Represents read (Function.update slots i slot) (Function.update m k value) := by
  -- No other slot holds the key, so the slot written is the only one to matter for it.
  have elsewhere {j v} (held : read (slots j) = some (k, v)) : j = i := by
    rcases writable with ⟨_, here⟩ | ⟨_, absent⟩
    · exact represents.distinct held here
    · rw [represents.lookup held] at absent
      cases absent
  have here {l v} (held : read (slots i) = some (l, v)) : l = k := by
    rcases writable with ⟨_, mine⟩ | ⟨free, _⟩
    · rw [mine] at held
      cases held
      rfl
    · rw [free] at held
      cases held
  have after {j l v} (held : read (Function.update slots i slot j) = some (l, v)) :
      (j = i ∧ l = k ∧ value = some v) ∨ (j ≠ i ∧ l ≠ k ∧ read (slots j) = some (l, v)) := by
    by_cases same : j = i
    · subst same
      rw [Function.update_self, written] at held
      obtain ⟨w, present, pair⟩ := Option.map_eq_some_iff.mp held
      cases pair
      exact .inl ⟨rfl, rfl, present⟩
    · rw [Function.update_of_ne same] at held
      exact .inr ⟨same, fun mine => same (elsewhere (mine ▸ held)), held⟩
  constructor
  · intro j j' l v w held held'
    rcases after held with ⟨rfl, rfl, _⟩ | ⟨_, other, old⟩
    · rcases after held' with ⟨rfl, _⟩ | ⟨_, other, _⟩
      · rfl
      · exact absurd rfl other
    · rcases after held' with ⟨_, rfl, _⟩ | ⟨_, _, old'⟩
      · exact absurd rfl other
      · exact represents.distinct old old'
  · intro l v
    by_cases same : l = k
    · subst same
      rw [Function.update_self]
      constructor
      · intro present
        exact ⟨i, by rw [Function.update_self, written, present]; rfl⟩
      · rintro ⟨j, held⟩
        rcases after held with ⟨_, _, present⟩ | ⟨_, other, _⟩
        · exact present
        · exact absurd rfl other
    · rw [Function.update_of_ne same, represents.entry_iff]
      constructor
      · rintro ⟨j, held⟩
        have other : j ≠ i := by
          rintro rfl
          exact same (here held)
        exact ⟨j, by rw [Function.update_of_ne other, held]⟩
      · rintro ⟨j, held⟩
        rcases after held with ⟨_, mine, _⟩ | ⟨_, _, old⟩
        · exact absurd mine same
        · exact ⟨j, old⟩

omit [DecidableEq K] in
/-- A change of the values in place. -/
theorem Represents.map (represents : Represents read slots m) {changed : Fin n → σ} {f : V → V}
    (values : ∀ i, read (changed i) = (read (slots i)).map fun (k, v) => (k, f v)) :
    Represents read changed fun k => (m k).map f := by
  have origin {i k v} (held : read (changed i) = some (k, v)) :
      ∃ w, read (slots i) = some (k, w) ∧ f w = v := by
    rw [values] at held
    obtain ⟨⟨l, w⟩, old, pair⟩ := Option.map_eq_some_iff.mp held
    cases pair
    exact ⟨w, old, rfl⟩
  constructor
  · intro i j k v w held held'
    obtain ⟨_, old, _⟩ := origin held
    obtain ⟨_, old', _⟩ := origin held'
    exact represents.distinct old old'
  · intro k v
    simp only [Option.map_eq_some_iff, represents.entry_iff]
    constructor
    · rintro ⟨w, ⟨i, old⟩, rfl⟩
      exact ⟨i, by rw [values, old]; rfl⟩
    · rintro ⟨i, held⟩
      obtain ⟨w, old, changed⟩ := origin held
      exact ⟨w, ⟨i, old⟩, changed⟩

end Miniweb.Lib.SlotTable
