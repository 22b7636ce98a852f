import Mathlib
import Miniweb.Core.HeartbeatClock
import Miniweb.HeartbeatProofs
import Miniweb.HeartbeatTiming
import Miniweb.Lib.Least

/-! How long the thread sleeps when no task is due. The loop that collects the due tasks
also looks for the least due time, and reads each before it moves the slot on: what it
ends with is the least of the times it found in the table, or zero for an empty one. -/
namespace Miniweb.HeartbeatWaitProofs

open Miniweb.Core Miniweb.HeartbeatProofs Miniweb.Lib.Least
open Miniweb.HeartbeatTiming (twoTasks)

variable {κ : Type} {slots : Fin hbMaxTasks → HbSlot κ} {now : Int} {mono : Timespec}

/-- The due times of the active slots among these, in their order. -/
def dueTimes (slots : Fin hbMaxTasks → HbSlot κ) (indices : List (Fin hbMaxTasks)) : List Int :=
  (indices.filter fun i => (slots i).active).map fun i => (slots i).nextRun

theorem mem_dueTimes {time : Int} : time ∈ dueTimes slots (List.finRange hbMaxTasks) ↔
    ∃ i, (slots i).active = true ∧ (slots i).nextRun = time := by
  simp [dueTimes]

theorem dueTimes_eq_nil_iff : dueTimes slots (List.finRange hbMaxTasks) = [] ↔
    ∀ i, (slots i).active = false := by
  simp [dueTimes, List.filter_eq_nil_iff]

/-! ## The loop -/

theorem wakeAt_collectSlot (now : Int) (c : Collecting κ) (i : Fin hbMaxTasks) :
    (collectSlot now c i).wakeAt =
      if (c.slots i).active then lower 0 c.wakeAt (c.slots i).nextRun else c.wakeAt := by
  unfold collectSlot lower
  dsimp only
  cases active : (c.slots i).active with
  | false => rfl
  | true =>
    by_cases early : now < (c.slots i).nextRun
    · simp [early]
    · simp [early]

/-- A round changes no slot but its own, so later rounds read the times of the start. -/
theorem wakeAt_foldl (now : Int) (indices : List (Fin hbMaxTasks)) (distinct : indices.Nodup)
    (c : Collecting κ) : (indices.foldl (collectSlot now) c).wakeAt =
      (dueTimes c.slots indices).foldl (lower 0) c.wakeAt := by
  induction indices generalizing c with
  | nil => rfl
  | cons j rest ih =>
    obtain ⟨fresh, distinct⟩ := List.nodup_cons.mp distinct
    have later : ∀ i ∈ rest, (collectSlot now c j).slots i = c.slots i := by
      intro i member
      have other : i ≠ j := fun same => fresh (same ▸ member)
      rw [(collectSlot_spec now c j).1]
      split
      · exact Function.update_of_ne other ..
      · rfl
    have kept : dueTimes (collectSlot now c j).slots rest = dueTimes c.slots rest := by
      have active : rest.filter (fun i => ((collectSlot now c j).slots i).active) =
          rest.filter fun i => (c.slots i).active :=
        List.filter_congr fun i member => by rw [later i member]
      rw [dueTimes, active, dueTimes]
      exact List.map_congr_left fun i member => by rw [later i (List.mem_filter.mp member).1]
    rw [List.foldl_cons, ih distinct, kept, wakeAt_collectSlot, dueTimes, dueTimes, List.filter_cons]
    split <;> rfl

theorem wakeAt_hbCollectDueTasks : (hbCollectDueTasks slots now).wakeAt =
    leastOf 0 (dueTimes slots (List.finRange hbMaxTasks)) :=
  wakeAt_foldl now (List.finRange hbMaxTasks) (List.nodup_finRange _) _

/-- An empty batch means that every active slot is due later. -/
theorem later_of_empty (empty : (hbCollectDueTasks slots now).todo = []) (i : Fin hbMaxTasks)
    (active : (slots i).active = true) : now < (slots i).nextRun := by
  rw [(hbCollectDueTasks_spec slots now).2] at empty
  by_contra late
  have isDue : due now (slots i) = true := by
    simpa [due, active] using late
  have member : (slots i).task ∈ tasksOf (due now) slots := mem_tasksOf.mpr ⟨i, isDue, rfl⟩
  rw [empty] at member
  cases member

/-! ## The wake-up -/

/-- No active slot has the time that stands for none. -/
def TimesSet (slots : Fin hbMaxTasks → HbSlot κ) : Prop :=
  ∀ i, (slots i).active = true → (slots i).nextRun ≠ 0

instance (slots : Fin hbMaxTasks → HbSlot κ) : Decidable (TimesSet slots) :=
  inferInstanceAs (Decidable (∀ _, _))

theorem TimesSet.zero_not_mem (set : TimesSet slots) :
    (0 : Int) ∉ dueTimes slots (List.finRange hbMaxTasks) := by
  intro member
  obtain ⟨i, active, zero⟩ := mem_dueTimes.mp member
  exact set i active zero

theorem TimesSet.wakeAt_eq_zero_iff (set : TimesSet slots) :
    (hbCollectDueTasks slots now).wakeAt = 0 ↔ ∀ i, (slots i).active = false := by
  rw [wakeAt_hbCollectDueTasks, leastOf_eq_unset_iff set.zero_not_mem, dueTimes_eq_nil_iff]

theorem TimesSet.wakeAt_ne_zero (set : TimesSet slots) {i : Fin hbMaxTasks}
    (active : (slots i).active = true) : (hbCollectDueTasks slots now).wakeAt ≠ 0 := by
  intro zero
  have inactive := set.wakeAt_eq_zero_iff.mp zero i
  rw [active] at inactive
  cases inactive

/-- Due or not, the least time of the table is found. -/
theorem TimesSet.wakeAt_isLeast (set : TimesSet slots) (now : Int) {i : Fin hbMaxTasks}
    (active : (slots i).active = true) :
    IsLeast {time | ∃ i, (slots i).active = true ∧ (slots i).nextRun = time}
      (hbCollectDueTasks slots now).wakeAt := by
  have some_time : dueTimes slots (List.finRange hbMaxTasks) ≠ [] :=
    List.ne_nil_of_mem (mem_dueTimes.mpr ⟨i, active, rfl⟩)
  rw [wakeAt_hbCollectDueTasks]
  simpa only [mem_dueTimes] using leastOf_isLeast set.zero_not_mem some_time

theorem TimesSet.wakeAt_later (set : TimesSet slots)
    (empty : (hbCollectDueTasks slots now).todo = []) {i : Fin hbMaxTasks}
    (active : (slots i).active = true) : now < (hbCollectDueTasks slots now).wakeAt := by
  obtain ⟨j, active_j, time⟩ := (set.wakeAt_isLeast now active).1
  rw [← time]
  exact later_of_empty empty j active_j

/-! ## The wait -/

theorem hbWaitForNextTick_later {wakeAt : Int} (set : wakeAt ≠ 0) (later : now < wakeAt) :
    hbWaitForNextTick now wakeAt mono = { mono with sec := mono.sec + (wakeAt - now) } :=
  if_pos ⟨set, later⟩

theorem reached_of_le {sec sec' nsec : Int} (le : sec ≤ sec') :
    Timespec.reached { sec, nsec } { sec := sec', nsec } = true := by
  have cases : sec < sec' ∨ sec = sec' := lt_or_eq_of_le le
  simpa [Timespec.reached] using cases

/-- By the time the clock has moved on as far as a due time is away, the wait is over. -/
theorem TimesSet.wait_reached (set : TimesSet slots)
    (empty : (hbCollectDueTasks slots now).todo = []) (mono : Timespec) {i : Fin hbMaxTasks}
    (active : (slots i).active = true) :
    (hbWaitForNextTick now (hbCollectDueTasks slots now).wakeAt mono).reached
      { mono with sec := mono.sec + ((slots i).nextRun - now) } = true := by
  have bound : (hbCollectDueTasks slots now).wakeAt ≤ (slots i).nextRun :=
    (set.wakeAt_isLeast now active).2 ⟨i, active, rfl⟩
  rw [hbWaitForNextTick_later (set.wakeAt_ne_zero active) (set.wakeAt_later empty active)]
  apply reached_of_le
  omega

/-- For every table whose active slots have due times other than zero, and every time at
which the batch stays empty: the wake-up is zero exactly when no slot is active; otherwise
it is the least due time of the active slots, and still to come. So the last branch of
`hb_wait_for_next_tick` is not taken, and the wait never goes past a task's due time. -/
theorem wakes_by_earliest (set : TimesSet slots)
    (empty : (hbCollectDueTasks slots now).todo = []) :
    ((hbCollectDueTasks slots now).wakeAt = 0 ↔ ∀ i, (slots i).active = false) ∧
    ((∃ i, (slots i).active = true) →
      IsLeast {time | ∃ i, (slots i).active = true ∧ (slots i).nextRun = time}
        (hbCollectDueTasks slots now).wakeAt ∧
      now < (hbCollectDueTasks slots now).wakeAt) ∧
    ¬ ((hbCollectDueTasks slots now).wakeAt ≠ 0 ∧ (hbCollectDueTasks slots now).wakeAt ≤ now) ∧
    ∀ mono i, (slots i).active = true →
      (hbWaitForNextTick now (hbCollectDueTasks slots now).wakeAt mono).reached
        { mono with sec := mono.sec + ((slots i).nextRun - now) } = true := by
  refine ⟨set.wakeAt_eq_zero_iff, ?_, ?_, fun mono i active => set.wait_reached empty mono active⟩
  · rintro ⟨i, active⟩
    exact ⟨set.wakeAt_isLeast now active, set.wakeAt_later empty active⟩
  · rintro ⟨isSet, passed⟩
    obtain ⟨i, active⟩ : ∃ i, (slots i).active = true := by
      by_contra none_active
      push Not at none_active
      exact isSet (set.wakeAt_eq_zero_iff.mpr fun i => Bool.eq_false_iff.mpr (none_active i))
    have later := set.wakeAt_later empty active
    omega

/-- Ten seconds before the earlier of two tasks. -/
theorem wakes_by_earliest_twoTasks :
    (hbCollectDueTasks twoTasks.slots 80).wakeAt = 90 ∧
      (hbWaitForNextTick 80 (hbCollectDueTasks twoTasks.slots 80).wakeAt ⟨5, 0⟩).reached
        ⟨15, 0⟩ = true := by
  have empty : (hbCollectDueTasks twoTasks.slots 80).todo = [] := by decide +kernel
  obtain ⟨_, _, _, reached⟩ := wakes_by_earliest (by decide +kernel) empty
  exact ⟨by decide +kernel, reached ⟨5, 0⟩ 3 rfl⟩

end Miniweb.HeartbeatWaitProofs
