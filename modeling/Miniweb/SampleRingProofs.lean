import Miniweb.Lib.Ring
import Miniweb.Modules.Sampling

/-! What the sampling rings give back. A ring is told by its history alone: behind the block it
holds the last samples that were pushed, as many as it has room for, and the readers find them
from `head` backwards. -/
namespace Miniweb.SampleRingProofs

open Miniweb.Modules Miniweb.Lib

variable {α : Type} {r : SampleRing α} {capacity n : Nat} {pushes : List α}

/-- The ring holds the last of the samples pushed so far. -/
structure HoldsLast (capacity : Nat) (pushes : List α) (r : SampleRing α) : Prop where
  within : r.head < capacity
  stored : ∃ cells, r.buf = .live cells ∧
    Ring.recent cells capacity r.head r.count = (pushes.reverse.map some).take capacity

theorem HoldsLast.count (holds : HoldsLast capacity pushes r) : r.count = min pushes.length capacity := by
  obtain ⟨cells, _, samples⟩ := holds.stored
  have lengths := congrArg List.length samples
  rw [Ring.length_recent, List.length_take, List.length_map, List.length_reverse] at lengths
  omega

theorem holdsLast_init (r : SampleRing α) (positive : 0 < capacity) :
    HoldsLast capacity [] (ringInit r true) :=
  ⟨positive, _, rfl, List.take_nil.symm⟩

/-- A push becomes the last one. -/
theorem HoldsLast.push (holds : HoldsLast capacity pushes r) (sample : α) :
    HoldsLast capacity (pushes ++ [sample]) (ringPush capacity r sample) := by
  obtain ⟨cells, live, samples⟩ := holds.stored
  refine ⟨Nat.mod_lt _ (Nat.zero_lt_of_lt holds.within), _, by rw [ringPush, live], ?_⟩
  rw [List.reverse_append, List.reverse_singleton, List.singleton_append, List.map_cons]
  exact Ring.recent_push holds.within samples (some sample)

/-- The ring after a run of pushes. -/
def pushAll (capacity : Nat) (r : SampleRing α) (pushes : List α) : SampleRing α :=
  pushes.foldl (ringPush capacity) r

theorem HoldsLast.pushAll (holds : HoldsLast capacity pushes r) (more : List α) :
    HoldsLast capacity (pushes ++ more) (pushAll capacity r more) := by
  induction more generalizing pushes r with
  | nil => simpa [SampleRingProofs.pushAll] using holds
  | cons sample rest ih =>
    have next := ih (holds.push sample)
    rwa [List.append_assoc] at next

/-- `ring_last` copies the last samples in the order in which they were pushed. -/
theorem ringLast_eq (holds : HoldsLast Sampler.metrics.capacity pushes r) (n : Nat) :
    ringLast true r n =
      (pushes.rtake (min n (min pushes.length Sampler.metrics.capacity))).map some := by
  have count := holds.count
  obtain ⟨cells, live, samples⟩ := holds.stored
  have few : (if r.count < n then r.count else n) =
      min n (min pushes.length Sampler.metrics.capacity) := by
    split <;> omega
  generalize copied : min n (min pushes.length Sampler.metrics.capacity) = k at few ⊢
  have fits : k ≤ Sampler.metrics.capacity := by omega
  have stored : k ≤ r.count := by omega
  have back : Ring.contents cells Sampler.metrics.capacity
      ((r.head + Sampler.metrics.capacity - k) % Sampler.metrics.capacity) k =
        (Ring.recent cells Sampler.metrics.capacity r.head k).reverse :=
    Ring.contents_back fits
  rw [Ring.contents, ← Ring.take_recent stored, samples] at back
  simp only [ringLast, Bool.not_true, Bool.false_eq_true, if_false, live, few, back]
  rw [List.take_take, Nat.min_eq_left (by omega), ← List.map_take, ← List.map_reverse,
    List.rtake_eq_reverse_take_reverse]

/-- `networking_ring_last` copies the last sample. -/
theorem networkingRingLast_eq (holds : HoldsLast Sampler.networking.capacity pushes r) :
    networkingRingLast r = pushes.getLast?.map some := by
  have count := holds.count
  obtain ⟨cells, live, samples⟩ := holds.stored
  simp only [networkingRingLast, live]
  by_cases empty : r.count = 0
  · have none' : pushes = [] := List.length_eq_zero_iff.mp (by have := holds.within; omega)
    rw [if_pos empty, none']
    rfl
  · have first := congrArg List.head? samples
    obtain ⟨fewer, all⟩ : ∃ fewer, r.count = fewer + 1 := ⟨r.count - 1, by omega⟩
    rw [all, Ring.recent, List.range_succ_eq_map, List.map_cons, List.head?_cons, List.head?_take,
      if_neg (by have := holds.within; omega), List.head?_map, List.head?_reverse] at first
    rw [if_neg empty]
    exact first

/-- Through any run of pushes `head` stays inside the block and `count` is the number of samples it
holds; `ring_last` gives the last samples in push order, and `networking_ring_last` the last
one. -/
theorem rings_give_last {β : Type} (metrics : SampleRing α) (networking : SampleRing β)
    (pushes : List α) (pushes' : List β) :
    let m := pushAll Sampler.metrics.capacity (ringInit metrics true) pushes
    let w := pushAll Sampler.networking.capacity (ringInit networking true) pushes'
    (m.head < Sampler.metrics.capacity ∧ m.count = min pushes.length Sampler.metrics.capacity ∧
      ∀ n, ringLast true m n =
        (pushes.rtake (min n (min pushes.length Sampler.metrics.capacity))).map some) ∧
    (w.head < Sampler.networking.capacity ∧
      w.count = min pushes'.length Sampler.networking.capacity ∧
      networkingRingLast w = pushes'.getLast?.map some) := by
  have m := (holdsLast_init metrics (by decide : 0 < Sampler.metrics.capacity)).pushAll pushes
  have w := (holdsLast_init networking (by decide : 0 < Sampler.networking.capacity)).pushAll pushes'
  exact ⟨⟨m.within, m.count, ringLast_eq m⟩, w.within, w.count, networkingRingLast_eq w⟩

end Miniweb.SampleRingProofs
