import Mathlib
import Miniweb.Lib.StampedSlots

/-! The scan of an array from front to back that looks for a slot and for a place to
write at once: it stops at the first free slot, before it has seen what is behind it,
or at the first slot that matches; when there is neither it has the slot with the
least stamp. -/
namespace Miniweb.Lib.SlotScan

variable {n : Nat} {T : Type*} [LinearOrder T]

/-- Where a scan ends. -/
inductive End (n : Nat) where
  /-- At a slot that matches. -/
  | found (i : Fin n)
  /-- At a free slot, or behind the last one with the one of least stamp. -/
  | slot (i : Option (Fin n))
  deriving DecidableEq

/-- The loop, with the slot of least stamp so far. -/
def scan (free same : Fin n → Bool) (stamp : Fin n → T) : Option (Fin n) → List (Fin n) → End n
  | slot, [] => .slot slot
  | slot, i :: rest =>
    if free i then .slot (some i)
    else if same i then .found i
    else
      match slot with
      | none => scan free same stamp (some i) rest
      | some j =>
        if stamp i < stamp j then scan free same stamp (some i) rest
        else scan free same stamp (some j) rest

variable {free same : Fin n → Bool} {stamp : Fin n → T} {slot : Option (Fin n)} {i : Fin n}
  {indices : List (Fin n)}

/-- One round of the loop passes a slot that is neither free nor the one looked for. -/
private theorem scan_passes (stamp : Fin n → T) (slot : Option (Fin n)) (indices : List (Fin n))
    (used : free i = false) (other : same i = false) :
    ∃ slot', scan free same stamp slot (i :: indices) = scan free same stamp slot' indices := by
  simp only [scan, used, other, Bool.false_eq_true, if_false]
  split
  · exact ⟨_, rfl⟩
  · split
    · exact ⟨_, rfl⟩
    · exact ⟨_, rfl⟩

/-- A slot that is found is in use and matches. -/
theorem same_of_found (ended : scan free same stamp slot indices = .found i) :
    free i = false ∧ same i = true := by
  induction indices generalizing slot with
  | nil => cases ended
  | cons j rest ih =>
    cases used : free j with
    | true => simp [scan, used] at ended
    | false =>
      cases here : same j with
      | true =>
        simp only [scan, used, here, Bool.false_eq_true, if_false, if_true, End.found.injEq] at ended
        subst ended
        exact ⟨used, here⟩
      | false =>
        obtain ⟨slot', passes⟩ := scan_passes stamp slot rest used here
        rw [passes] at ended
        exact ih ended

private theorem scan_reaches {front rest : List (Fin n)} (used : ∀ j ∈ front, free j = false)
    (usedHere : free i = false) (here : same i = true) :
    ∃ j, scan free same stamp slot (front ++ i :: rest) = .found j := by
  induction front generalizing slot with
  | nil => exact ⟨i, by simp [scan, usedHere, here]⟩
  | cons j front ih =>
    have usedFirst := used j List.mem_cons_self
    cases other : same j with
    | true => exact ⟨j, by simp [scan, usedFirst, other]⟩
    | false =>
      obtain ⟨slot', passes⟩ := scan_passes stamp slot (front ++ i :: rest) usedFirst other
      rw [List.cons_append, passes]
      exact ih fun k member => used k (List.mem_cons_of_mem _ member)

/-- A scan of the whole array ends at a match, if there is one with no free slot in
front of it. -/
theorem scan_finds (same : Fin n → Bool) (stamp : Fin n → T) (slot : Option (Fin n))
    (used : ∀ j ≤ i, free j = false) (here : same i = true) :
    ∃ j, scan free same stamp slot (List.finRange n) = .found j := by
  obtain ⟨front, rest, split⟩ := List.append_of_mem (List.mem_finRange i)
  rw [split]
  refine scan_reaches (fun j member => ?_) (used i le_rfl) here
  exact used j ((StampedSlots.mem_front_iff split).mp member).le

end Miniweb.Lib.SlotScan
