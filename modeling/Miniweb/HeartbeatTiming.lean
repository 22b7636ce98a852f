import Mathlib
import Miniweb.HeartbeatProofs
import Miniweb.Lib.Transition

/-! When a periodic task runs. Each call of `hb_collect_due_tasks` moves a due
task to the first point of its grid that is still to come, so the grid a task
started on is never left: the time of its next run is its first time plus one
period for every run and every overrun counted. -/
namespace Miniweb.HeartbeatTiming

open Miniweb.Core Miniweb.HeartbeatProofs
open Miniweb.Lib
open Miniweb.Lib.CString (lit)
open Miniweb.Lib.Transition (Reach)

variable {κ : Type} {now : Int} {slot first : HbSlot κ}

/-- The range of `time_t` on one side. -/
abbrev timeLimit : Int := 2 ^ 63

/-- A task's period, as `time_t`. -/
def period (slot : HbSlot κ) : Int := slot.task.periodSec.toNat

/-- The sums a call at `now` makes for the slot stay within `time_t`. -/
def Fits (now : Int) (slot : HbSlot κ) : Prop :=
  now - slot.nextRun + period slot < timeLimit ∧ now + period slot < timeLimit

instance : Decidable (Fits now slot) := inferInstanceAs (Decidable (_ ∧ _))

/-! ## One task -/

private theorem toInt_toInt64 {x : UInt64} (small : x.toNat < 2 ^ 63) :
    x.toInt64.toInt = x.toNat :=
  BitVec.toInt_eq_toNat_of_lt (by simpa using (by omega : 2 * x.toNat < 2 ^ 64))

/-- The quotient the source counts as missed. -/
theorem toNat_missed (positive : 0 < period slot) (late : slot.nextRun ≤ now)
    (fits : Fits now slot) :
    ((missed now slot).toNat : Int) = (now - slot.nextRun) / period slot := by
  have limit : timeLimit = 2 ^ 63 := rfl
  have nonneg : 0 ≤ (now - slot.nextRun) / period slot := Int.ediv_nonneg (by omega) positive.le
  have small : (now - slot.nextRun) / period slot ≤ now - slot.nextRun :=
    Int.ediv_le_self _ (by omega)
  unfold missed
  dsimp only
  split
  · have := fits.1
    have bound : ((now - slot.nextRun) / period slot).toNat < 2 ^ 64 := by omega
    show ((UInt64.ofNat ((now - slot.nextRun) / period slot).toNat).toNat : Int) = _
    rw [UInt64.toNat_ofNat_of_lt' bound]
    omega
  · rename_i onTime
    have none_passed : now - slot.nextRun = 0 := by
      unfold period at positive
      omega
    simp [none_passed]

/-- The 64-bit product of the source is the real one when the sums fit. -/
theorem nextRun_served (positive : 0 < period slot) (late : slot.nextRun ≤ now)
    (fits : Fits now slot) : (served now slot).nextRun =
      slot.nextRun + ((now - slot.nextRun) / period slot + 1) * period slot := by
  have limit : timeLimit = 2 ^ 63 := rfl
  have counted := toNat_missed positive late fits
  have quotient : (now - slot.nextRun) / period slot * period slot ≤ now - slot.nextRun :=
    Int.ediv_mul_le _ positive.ne'
  have small : (now - slot.nextRun) / period slot ≤ now - slot.nextRun :=
    Int.ediv_le_self _ (by omega)
  have gap := fits.1
  have product : (((missed now slot).toNat + 1) * slot.task.periodSec.toNat : Nat) =
      ((now - slot.nextRun) / period slot + 1) * period slot := by
    push_cast
    rw [counted, period]
  have within : ((now - slot.nextRun) / period slot + 1) * period slot < timeLimit := by
    rw [Int.add_mul, Int.one_mul]
    omega
  have exact_product : ((missed now slot + 1) * slot.task.periodSec.toUInt64).toNat =
      ((missed now slot).toNat + 1) * slot.task.periodSec.toNat := by
    have more : (missed now slot + 1).toNat = (missed now slot).toNat + 1 := by
      rw [UInt64.toNat_add, UInt64.toNat_one, Nat.mod_eq_of_lt (by omega)]
    rw [UInt64.toNat_mul, more, UInt32.toNat_toUInt64, Nat.mod_eq_of_lt (by omega)]
  show slot.nextRun + _ = _
  rw [toInt_toInt64 (by omega), exact_product, product]

/-- A due task moves to the first later point of its grid. -/
theorem nextRun_served_isLeast (positive : 0 < period slot) (late : slot.nextRun ≤ now)
    (fits : Fits now slot) :
    IsLeast {time | now < time ∧ ∃ k : Nat, 1 ≤ k ∧ time = slot.nextRun + k * period slot}
      (served now slot).nextRun := by
  have counted := toNat_missed positive late fits
  rw [nextRun_served positive late fits]
  have remainder := Int.emod_lt_of_pos (now - slot.nextRun) positive
  have division := Int.mul_ediv_add_emod (now - slot.nextRun) (period slot)
  constructor
  · refine ⟨?_, (missed now slot).toNat + 1, by omega, ?_⟩
    · rw [Int.add_mul, Int.mul_comm, Int.one_mul]
      omega
    · push_cast
      rw [counted]
  · rintro _ ⟨after, k, _, rfl⟩
    -- A point of the grid at or before the quotient is not after now.
    have beyond : (now - slot.nextRun) / period slot < k := by
      apply Int.ediv_lt_of_lt_mul positive
      omega
    have := Int.mul_le_mul_of_nonneg_right (Int.add_one_le_of_lt beyond) positive.le
    omega

/-- The law between a slot and its first state: nothing but times and counters
has changed, and every period since is counted once. -/
structure Accounted (first slot : HbSlot κ) : Prop where
  active : slot.active = first.active
  task : slot.task = first.task
  law : first.active = true → slot.nextRun =
    first.nextRun + period first * (slot.stats.runs.toNat + slot.stats.overruns.toNat)

theorem accounted_served (accounted : Accounted first slot) (positive : 0 < period first)
    (inRange : -timeLimit ≤ first.nextRun) (isDue : due now slot = true) (fits : Fits now slot) :
    Accounted first (served now slot) := by
  have same : period slot = period first := by rw [period, accounted.task, period]
  have limit : timeLimit = 2 ^ 63 := rfl
  obtain ⟨active, late⟩ := Bool.and_eq_true_iff.mp isDue
  rw [decide_eq_true_eq] at late
  rw [← same] at positive
  have counted := toNat_missed positive late fits
  have moved := nextRun_served positive late fits
  refine ⟨accounted.active, accounted.task, fun firstActive => ?_⟩
  have law := accounted.law firstActive
  rw [← same] at law ⊢
  have total : (served now slot).nextRun = first.nextRun + period slot *
      (slot.stats.runs.toNat + slot.stats.overruns.toNat + (missed now slot).toNat + 1) := by
    rw [moved, ← counted, law]
    ring
  -- The counters cannot wrap: the periods they count all lie within the range of times.
  have upper : (served now slot).nextRun ≤ now + period slot := by
    have := Int.ediv_mul_le (now - slot.nextRun) positive.ne'
    rw [moved, Int.add_mul, Int.one_mul]
    omega
  have bounded : (slot.stats.runs.toNat + slot.stats.overruns.toNat + (missed now slot).toNat + 1 :
      Int) ≤ period slot *
      (slot.stats.runs.toNat + slot.stats.overruns.toNat + (missed now slot).toNat + 1) :=
    le_mul_of_one_le_left (by omega) positive
  have := fits.2
  have runs : (slot.stats.runs + 1).toNat = slot.stats.runs.toNat + 1 := by
    rw [UInt64.toNat_add, UInt64.toNat_one, Nat.mod_eq_of_lt (by omega)]
  have overruns : (slot.stats.overruns + missed now slot).toNat =
      slot.stats.overruns.toNat + (missed now slot).toNat := by
    rw [UInt64.toNat_add, Nat.mod_eq_of_lt (by omega)]
  rw [total]
  show _ = first.nextRun + period slot * ((slot.stats.runs + 1).toNat +
    (slot.stats.overruns + missed now slot).toNat)
  rw [runs, overruns]
  push_cast
  ring

/-! ## Every call -/

/-- The table between two calls of `hb_collect_due_tasks`, and the time of the
last one. -/
structure Ticking (κ : Type) where
  slots : Fin hbMaxTasks → HbSlot κ
  last : Int

/-- One call of `hb_collect_due_tasks` at `now`. -/
def tick (s : Ticking κ) (now : Int) : Option (Ticking κ) :=
  some { slots := (hbCollectDueTasks s.slots now).slots, last := now }

/-- The clock does not go back, and the sums of the call fit `time_t`. -/
def Timely (s : Ticking κ) (now : Int) : Prop :=
  s.last ≤ now ∧ ∀ i, (s.slots i).active = true → Fits now (s.slots i)

instance (s : Ticking κ) (now : Int) : Decidable (Timely s now) :=
  inferInstanceAs (Decidable (_ ∧ _))

/-- Active tasks as they are registered: a period, a first time within `time_t`
and no run yet. -/
def Registered (slots : Fin hbMaxTasks → HbSlot κ) : Prop :=
  ∀ i, (slots i).active = true → 1 ≤ (slots i).task.periodSec.toNat ∧
    -timeLimit ≤ (slots i).nextRun ∧ (slots i).stats.runs = 0 ∧ (slots i).stats.overruns = 0

instance (slots : Fin hbMaxTasks → HbSlot κ) : Decidable (Registered slots) :=
  inferInstanceAs (Decidable (∀ _, _))

variable {start s t : Ticking κ}

theorem accounted_tick (registered : Registered start.slots)
    (accounted : ∀ i, Accounted (start.slots i) (s.slots i)) (timely : Timely s now)
    (taken : tick s now = some t) (i : Fin hbMaxTasks) :
    Accounted (start.slots i) (t.slots i) := by
  cases taken
  dsimp only
  rw [(hbCollectDueTasks_spec s.slots now).1 i]
  split
  · rename_i isDue
    have active : (s.slots i).active = true := (Bool.and_eq_true_iff.mp isDue).1
    obtain ⟨positive, inRange, _⟩ := registered i ((accounted i).active ▸ active)
    exact accounted_served (accounted i) (Int.natCast_pos.mpr positive) inRange isDue
      (timely.2 i active)
  · exact accounted i

theorem accounted_reach (registered : Registered start.slots)
    (reached : Reach tick Timely start s) : ∀ i, Accounted (start.slots i) (s.slots i) := by
  refine reached.invariant ?_ fun _ _ _ accounted timely taken =>
    accounted_tick registered accounted timely taken
  intro i
  refine ⟨rfl, rfl, fun active => ?_⟩
  obtain ⟨_, _, runs, overruns⟩ := registered i active
  simp [runs, overruns]

/-- In every run of calls at times that do not go back: the batch of a call is
the list of the tasks due, each once; a due task moves to the least point of its
grid after the time of the call, a task that is not due stays as it is; and the
next time of a task is its first time plus a period for every run and overrun. -/
theorem due_tasks_keep_their_grid (registered : Registered start.slots)
    (reached : Reach tick Timely start s) :
    (∀ i, (start.slots i).active = true → (s.slots i).nextRun = (start.slots i).nextRun +
      (start.slots i).task.periodSec.toNat *
        ((s.slots i).stats.runs.toNat + (s.slots i).stats.overruns.toNat)) ∧
    ∀ now, Timely s now →
      (hbCollectDueTasks s.slots now).todo =
        tasksOf (fun slot => slot.active && decide (slot.nextRun ≤ now)) s.slots ∧
      ∀ i, (start.slots i).active = true →
        (s.slots i).active = true ∧ (s.slots i).task = (start.slots i).task ∧
        (now < (s.slots i).nextRun → (hbCollectDueTasks s.slots now).slots i = s.slots i) ∧
        ((s.slots i).nextRun ≤ now →
          IsLeast {time | now < time ∧ ∃ k : Nat, 1 ≤ k ∧
              time = (s.slots i).nextRun + k * (start.slots i).task.periodSec.toNat}
            ((hbCollectDueTasks s.slots now).slots i).nextRun) := by
  have accounted := accounted_reach registered reached
  refine ⟨fun i active => (accounted i).law active, fun now timely => ?_⟩
  obtain ⟨slots_eq, todo_eq⟩ := hbCollectDueTasks_spec s.slots now
  refine ⟨todo_eq, fun i active => ?_⟩
  have nowActive : (s.slots i).active = true := (accounted i).active.trans active
  refine ⟨nowActive, (accounted i).task, fun early => ?_, fun late => ?_⟩
  · have notDue : due now (s.slots i) = false := by
      simp [due, early]
    rw [slots_eq, notDue]
    rfl
  · have isDue : due now (s.slots i) = true := by
      simp [due, nowActive, late]
    have positive : 0 < period (s.slots i) := by
      rw [period, (accounted i).task]
      exact Int.natCast_pos.mpr (registered i active).1
    have least := nextRun_served_isLeast positive late (timely.2 i nowActive)
    rw [period, (accounted i).task] at least
    rw [slots_eq, isDue]
    exact least

/-- Two tasks, one every five and one every seven seconds. -/
def twoTasks : Ticking Unit where
  slots i :=
    if i = 0 then
      { task := { name := some (lit "a"), periodSec := 5, cb := some () }
        nextRun := 100
        active := true }
    else if i = 3 then
      { task := { name := some (lit "b"), periodSec := 7, cb := some () }
        nextRun := 90
        active := true }
    else {}
  last := 0

/-- After a call on time and one 23 seconds late. -/
theorem due_tasks_keep_their_grid_twoTasks : ∃ s, Reach tick Timely twoTasks s ∧
    (s.slots 0).nextRun = 125 ∧ (s.slots 3).nextRun = 125 ∧
    (s.slots 0).nextRun =
      100 + 5 * ((s.slots 0).stats.runs.toNat + (s.slots 0).stats.overruns.toNat) ∧
    (s.slots 3).nextRun =
      90 + 7 * ((s.slots 3).stats.runs.toNat + (s.slots 3).stats.overruns.toNat) := by
  have registered : Registered twoTasks.slots := by decide +kernel
  have ran : (Transition.run (Transition.guarded Timely tick) twoTasks
      [100, 123]).map (fun s => ((s.slots 0).nextRun, (s.slots 3).nextRun)) = some (125, 125) := by
    decide +kernel
  obtain ⟨s, reached, final⟩ := Transition.exists_reach_of_run ran
  obtain ⟨law, _⟩ := due_tasks_keep_their_grid registered reached
  obtain ⟨first, second⟩ := Prod.mk.inj final
  exact ⟨s, reached, first, second, law 0 (by decide), law 3 (by decide)⟩

end Miniweb.HeartbeatTiming
