import Mathlib
import Miniweb.Core.HeartbeatClock
import Miniweb.HeartbeatProofs
import Miniweb.Lib.Transition

/-! Two runs of the scheduler with the same calls at the same instants of
`CLOCK_MONOTONIC` and other readings of `time(NULL)`. They call the same tasks
at the same instants as long as the wall clocks have moved by the same amount
since each task was set; a step of one of them moves the tasks with it. -/
namespace Miniweb.HeartbeatClockProofs

open Miniweb.Core Miniweb.HeartbeatProofs Miniweb.Lib
open Miniweb.Lib.CString (Bytes lit)
open Miniweb.Lib.Transition (Reach Any)

variable {κ : Type} {s t : Clocked κ} {hb hb' : Heartbeat κ}
  {slots slots' : Fin hbMaxTasks → HbSlot κ} {now now' : Int} {near : Int → Int → Prop}

/-! ## Tables that differ in their times -/

/-- The same task, with due times that are related. -/
structure SlotAlike (near : Int → Int → Prop) (slot slot' : HbSlot κ) : Prop where
  active : slot.active = slot'.active
  task : slot.task = slot'.task
  times : slot.active = true → near slot.nextRun slot'.nextRun

/-- A relation of times that does not change when both move on. -/
def Moves (near : Int → Int → Prop) : Prop := ∀ a b n, near a b → near (a + n) (b + n)

/-- The same tasks and the same flags. -/
structure TablesAlike (near : Int → Int → Prop) (hb hb' : Heartbeat κ) : Prop where
  slots : ∀ i, SlotAlike near (hb.slots i) (hb'.slots i)
  initialized : hb.initialized = hb'.initialized
  running : hb.running = hb'.running
  stopRequested : hb.stopRequested = hb'.stopRequested
  drainOnStop : hb.drainOnStop = hb'.drainOnStop

/-- No task in either slot. -/
theorem slotAlike_empty : SlotAlike near ({} : HbSlot κ) {} :=
  ⟨rfl, rfl, fun active => by cases active⟩

/-- A slot is written in both tables. -/
theorem slotsAlike_update (alike : ∀ i, SlotAlike near (slots i) (slots' i)) (i : Fin hbMaxTasks)
    {slot slot' : HbSlot κ} (written : SlotAlike near slot slot') (j : Fin hbMaxTasks) :
    SlotAlike near (Function.update slots i slot j) (Function.update slots' i slot' j) := by
  by_cases same : j = i
  · subst same
    rwa [Function.update_self, Function.update_self]
  · rw [Function.update_of_ne same, Function.update_of_ne same]
    exact alike j

theorem TablesAlike.withSlots (alike : TablesAlike near hb hb')
    (next : ∀ i, SlotAlike near (slots i) (slots' i)) :
    TablesAlike near { hb with slots } { hb' with slots := slots' } :=
  ⟨next, alike.initialized, alike.running, alike.stopRequested, alike.drainOnStop⟩

theorem TablesAlike.init (alike : TablesAlike near hb hb') :
    TablesAlike near (heartbeatInit hb) (heartbeatInit hb') := by
  unfold heartbeatInit
  rw [← alike.initialized]
  split
  · exact alike
  · exact ⟨fun _ => slotAlike_empty, rfl, alike.running, alike.stopRequested, alike.drainOnStop⟩

theorem TablesAlike.hasName (alike : TablesAlike near hb hb') (name : Option Bytes) :
    hasName hb name = hasName hb' name := by
  funext i
  rw [Core.hasName, Core.hasName, (alike.slots i).active, (alike.slots i).task]

/-! ## The calls -/

theorem TablesAlike.register (alike : TablesAlike near hb hb') (moves : Moves near)
    (reads : near now now') (task : HbTask κ) :
    (heartbeatRegister hb task now).1 = (heartbeatRegister hb' task now').1 ∧
      TablesAlike near (heartbeatRegister hb task now).2 (heartbeatRegister hb' task now').2 := by
  unfold heartbeatRegister
  split
  · exact ⟨rfl, alike⟩
  · have init := alike.init
    have free : (fun i => !((heartbeatInit hb).slots i).active) =
        fun i => !((heartbeatInit hb').slots i).active := by
      funext i
      rw [(init.slots i).active]
    dsimp only
    rw [← init.hasName, ← free]
    split
    · exact ⟨rfl, init⟩
    · split
      · exact ⟨rfl, init⟩
      · exact ⟨rfl, init.withSlots
          (slotsAlike_update init.slots _ ⟨rfl, rfl, fun _ => moves _ _ _ reads⟩)⟩

theorem TablesAlike.unregister (alike : TablesAlike near hb hb') (name : Option Bytes) :
    (heartbeatUnregister hb name).1 = (heartbeatUnregister hb' name).1 ∧
      TablesAlike near (heartbeatUnregister hb name).2 (heartbeatUnregister hb' name).2 := by
  unfold heartbeatUnregister
  split
  · exact ⟨rfl, alike⟩
  · have init := alike.init
    dsimp only
    rw [← init.hasName]
    split
    · exact ⟨rfl, init⟩
    · exact ⟨rfl, init.withSlots (slotsAlike_update init.slots _ slotAlike_empty)⟩

theorem TablesAlike.updated (alike : TablesAlike near hb hb') (moves : Moves near)
    (reads : near now now') (name : Option Bytes) (periodSec initialDelaySec : UInt32)
    (ctx : Nat) :
    (heartbeatUpdate hb name periodSec initialDelaySec ctx now).1 =
        (heartbeatUpdate hb' name periodSec initialDelaySec ctx now').1 ∧
      TablesAlike near (heartbeatUpdate hb name periodSec initialDelaySec ctx now).2
        (heartbeatUpdate hb' name periodSec initialDelaySec ctx now').2 := by
  unfold heartbeatUpdate
  split
  · exact ⟨rfl, alike⟩
  · have init := alike.init
    dsimp only
    rw [← init.hasName]
    split
    · exact ⟨rfl, init⟩
    · rename_i i _
      refine ⟨rfl, init.withSlots (slotsAlike_update init.slots _
        ⟨(init.slots i).active, ?_, fun _ => moves _ _ _ reads⟩)⟩
      rw [(init.slots i).task]

theorem TablesAlike.start (alike : TablesAlike near hb hb') (created : Bool) :
    TablesAlike near (heartbeatStart hb created).2 (heartbeatStart hb' created).2 := by
  have init := alike.init
  unfold heartbeatStart
  dsimp only
  rw [← init.running]
  split
  · exact init
  · split
    · exact ⟨init.slots, init.initialized, rfl, rfl, rfl⟩
    · exact ⟨init.slots, init.initialized, rfl, rfl, rfl⟩

theorem TablesAlike.stop (alike : TablesAlike near hb hb') (drain : Bool) :
    (requestStop hb drain).1 = (requestStop hb' drain).1 ∧
      TablesAlike near (requestStop hb drain).2 (requestStop hb' drain).2 := by
  have init := alike.init
  unfold requestStop
  dsimp only
  rw [← init.running]
  split
  · exact ⟨rfl, init.slots, init.initialized, rfl, rfl, rfl⟩
  · exact ⟨rfl, init⟩

/-! ## Collecting -/

/-- A task is as far from its due time in both runs, and no due time to come is
the second 0, which the source takes for none. -/
def SlotInStep (now now' : Int) (slot slot' : HbSlot κ) : Prop :=
  now - slot.nextRun = now' - slot'.nextRun ∧
    (now < slot.nextRun → slot.nextRun ≠ 0 ∧ slot'.nextRun ≠ 0)

instance (now now' : Int) (slot slot' : HbSlot κ) : Decidable (SlotInStep now now' slot slot') :=
  inferInstanceAs (Decidable (_ ∧ _))

/-- The clocks are in step for every active task. -/
def ClocksInStep (now now' : Int) (slots slots' : Fin hbMaxTasks → HbSlot κ) : Prop :=
  ∀ i, (slots i).active = true → SlotInStep now now' (slots i) (slots' i)

instance (now now' : Int) (slots slots' : Fin hbMaxTasks → HbSlot κ) :
    Decidable (ClocksInStep now now' slots slots') :=
  inferInstanceAs (Decidable (∀ _, _))

theorem due_eq {slot slot' : HbSlot κ} (alike : SlotAlike near slot slot')
    (inStep : slot.active = true → SlotInStep now now' slot slot') :
    due now slot = due now' slot' := by
  rw [due, due, ← alike.active]
  cases active : slot.active with
  | false => rfl
  | true =>
    obtain ⟨same, _⟩ := inStep active
    have : slot.nextRun ≤ now ↔ slot'.nextRun ≤ now' := by omega
    rw [Bool.true_and, Bool.true_and, decide_eq_decide]
    exact this

/-- The due tasks are the same. -/
theorem todo_eq (alike : ∀ i, SlotAlike near (slots i) (slots' i))
    (inStep : ClocksInStep now now' slots slots') :
    (hbCollectDueTasks slots now).todo = (hbCollectDueTasks slots' now').todo := by
  rw [(hbCollectDueTasks_spec slots now).2, (hbCollectDueTasks_spec slots' now').2, tasksOf,
    tasksOf]
  have taken : (fun i => due now (slots i)) = fun i => due now' (slots' i) :=
    funext fun i => due_eq (alike i) (inStep i)
  rw [taken]
  exact List.map_congr_left fun i _ => (alike i).task

/-- A task that is served moves by as much in both runs. -/
theorem slotAlike_served {slot slot' : HbSlot κ} (moves : Moves near)
    (alike : SlotAlike near slot slot') (inStep : slot.active = true → SlotInStep now now' slot slot') :
    SlotAlike near (served now slot) (served now' slot') := by
  refine ⟨alike.active, alike.task, fun active => ?_⟩
  have same : missed now slot = missed now' slot' := by
    unfold missed
    rw [(inStep active).1, alike.task]
  show near (slot.nextRun + _) (slot'.nextRun + _)
  rw [same, alike.task]
  exact moves _ _ _ (alike.times active)

/-- And so is what is left of the table. -/
theorem slotsAlike_collect (moves : Moves near)
    (alike : ∀ i, SlotAlike near (slots i) (slots' i))
    (inStep : ClocksInStep now now' slots slots') (i : Fin hbMaxTasks) :
    SlotAlike near ((hbCollectDueTasks slots now).slots i)
      ((hbCollectDueTasks slots' now').slots i) := by
  rw [(hbCollectDueTasks_spec slots now).1, (hbCollectDueTasks_spec slots' now').1,
    ← due_eq (alike i) (inStep i)]
  split
  · exact slotAlike_served moves (alike i) (inStep i)
  · exact alike i

theorem slotsAlike_collectAll (alike : ∀ i, SlotAlike near (slots i) (slots' i)) (now now' : Int)
    (i : Fin hbMaxTasks) :
    SlotAlike near ((hbCollectAllActive slots now).slots i)
      ((hbCollectAllActive slots' now').slots i) := by
  rw [(hbCollectAllActive_spec slots now).1, (hbCollectAllActive_spec slots' now').1,
    ← (alike i).active]
  split
  · exact ⟨(alike i).active, (alike i).task, (alike i).times⟩
  · exact alike i

/-- A wake-up time that is as far away in both runs, or none. -/
def WakeAlike (now now' wakeAt wakeAt' : Int) : Prop :=
  (wakeAt = 0 ∧ wakeAt' = 0) ∨ (wakeAt ≠ 0 ∧ wakeAt' ≠ 0 ∧ wakeAt - now = wakeAt' - now')

theorem hbWaitForNextTick_eq {wakeAt wakeAt' : Int} (alike : WakeAlike now now' wakeAt wakeAt')
    (nowMono : Timespec) :
    hbWaitForNextTick now wakeAt nowMono = hbWaitForNextTick now' wakeAt' nowMono := by
  rcases alike with ⟨rfl, rfl⟩ | ⟨some', some'', same⟩
  · simp [hbWaitForNextTick]
  · by_cases later : wakeAt > now
    · have later' : wakeAt' > now' := by omega
      rw [hbWaitForNextTick, hbWaitForNextTick, if_pos ⟨some', later⟩, if_pos ⟨some'', later'⟩, same]
    · have earlier : ¬ wakeAt' > now' := by omega
      simp [hbWaitForNextTick, some', some'', later, earlier]

/-- A slot that is not due changes the wake-up time only. -/
theorem collectSlot_early (now : Int) (c : Collecting κ) (i : Fin hbMaxTasks)
    (early : (c.slots i).active = true → now < (c.slots i).nextRun) :
    collectSlot now c i = { c with
      wakeAt :=
        if (c.slots i).active = true ∧ (c.wakeAt = 0 ∨ (c.slots i).nextRun < c.wakeAt) then
          (c.slots i).nextRun
        else c.wakeAt } := by
  unfold collectSlot
  dsimp only
  cases active : (c.slots i).active with
  | false => simp
  | true =>
    rw [if_neg (by simp), if_pos (early active)]
    simp

/-- With nothing due, the wake-up times of the two runs are alike. -/
theorem foldl_wakeAlike (indices : List (Fin hbMaxTasks)) {c c' : Collecting κ}
    (alike : ∀ i, SlotAlike near (c.slots i) (c'.slots i))
    (inStep : ClocksInStep now now' c.slots c'.slots)
    (early : ∀ i, (c.slots i).active = true → now < (c.slots i).nextRun)
    (wake : WakeAlike now now' c.wakeAt c'.wakeAt) :
    WakeAlike now now' (indices.foldl (collectSlot now) c).wakeAt
      (indices.foldl (collectSlot now') c').wakeAt := by
  induction indices generalizing c c' with
  | nil => exact wake
  | cons i rest ih =>
    have early' : (c'.slots i).active = true → now' < (c'.slots i).nextRun := by
      intro active
      rw [← (alike i).active] at active
      have := early i active
      obtain ⟨same, _⟩ := inStep i active
      omega
    rw [List.foldl_cons, List.foldl_cons, collectSlot_early now c i (early i),
      collectSlot_early now' c' i early', ← (alike i).active]
    refine ih alike inStep early ?_
    cases active : (c.slots i).active with
    | false => simpa using wake
    | true =>
      obtain ⟨same, nonzero⟩ := inStep i active
      obtain ⟨some', some''⟩ := nonzero (early i active)
      simp only [true_and]
      rcases wake with ⟨none', none''⟩ | ⟨set, set', apart⟩
      · rw [none', none'', if_pos (.inl rfl), if_pos (.inl rfl)]
        exact .inr ⟨some', some'', by omega⟩
      · by_cases sooner : (c.slots i).nextRun < c.wakeAt
        · have sooner' : (c'.slots i).nextRun < c'.wakeAt := by omega
          rw [if_pos (.inr sooner), if_pos (.inr sooner')]
          exact .inr ⟨some', some'', by omega⟩
        · have later : ¬ (c'.slots i).nextRun < c'.wakeAt := by omega
          rw [if_neg (by omega), if_neg (by omega)]
          exact .inr ⟨set, set', apart⟩

/-- With nothing due, the thread waits until the same instant. -/
theorem deadline_eq (alike : ∀ i, SlotAlike near (slots i) (slots' i))
    (inStep : ClocksInStep now now' slots slots') (none_due : (hbCollectDueTasks slots now).todo = [])
    (nowMono : Timespec) :
    hbWaitForNextTick now (hbCollectDueTasks slots now).wakeAt nowMono =
      hbWaitForNextTick now' (hbCollectDueTasks slots' now').wakeAt nowMono := by
  have early : ∀ i, (slots i).active = true → now < (slots i).nextRun := by
    intro i active
    by_contra late
    rw [(hbCollectDueTasks_spec slots now).2] at none_due
    have member : (slots i).task ∈ tasksOf (due now) slots :=
      mem_tasksOf.mpr ⟨i, by simpa [due, active] using late, rfl⟩
    rw [none_due] at member
    cases member
  exact hbWaitForNextTick_eq
    (foldl_wakeAlike (List.finRange hbMaxTasks) alike inStep early (.inl ⟨rfl, rfl⟩)) nowMono

/-! ## Two runs -/

/-- The same tasks and flags, the thread at the same place with the same
deadline, and the same calls so far. -/
structure Alike (near : Int → Int → Prop) (s t : Clocked κ) : Prop where
  tables : TablesAlike near s.hb t.hb
  thread : s.thread = t.thread
  wait : s.wait = t.wait
  log : s.log = t.log

theorem Alike.signal (alike : Alike near s t) (tables : TablesAlike near hb hb') (called : Bool) :
    Alike near (signal { s with hb } called) (signal { t with hb := hb' } called) := by
  cases called with
  | true => exact ⟨tables, alike.thread, rfl, alike.log⟩
  | false => exact ⟨tables, alike.thread, alike.wait, alike.log⟩

theorem Alike.collect (moves : Moves near) (alike : Alike near s t)
    (inStep : ClocksInStep now now' s.hb.slots t.hb.slots)
    (mono : Timespec) : Alike near (collectTurn s mono now) (collectTurn t mono now') := by
  have slots := alike.tables.slots
  have todo := todo_eq slots inStep
  have stop := alike.tables.stopRequested
  refine ⟨alike.tables.withSlots (slotsAlike_collect moves slots inStep), ?_, ?_, alike.log⟩
  · simp only [collectTurn, threadCollect]
    rw [todo, stop, alike.tables.drainOnStop]
  · simp only [collectTurn]
    rw [← todo, ← stop]
    split
    · rename_i waits
      rw [deadline_eq slots inStep waits.1]
    · rfl

/-- The final collection takes the same tasks. -/
theorem todoAll_eq (alike : ∀ i, SlotAlike near (slots i) (slots' i)) (now now' : Int) :
    (hbCollectAllActive slots now).todo = (hbCollectAllActive slots' now').todo := by
  rw [(hbCollectAllActive_spec slots now).2, (hbCollectAllActive_spec slots' now').2, tasksOf,
    tasksOf]
  have taken : (fun i => (slots i).active) = fun i => (slots' i).active :=
    funext fun i => (alike i).active
  rw [taken]
  exact List.map_congr_left fun i _ => (alike i).task

/-- Past a batch, and at the final collection, the time does not matter. -/
theorem Alike.advance (alike : Alike near s t) (now now' : Int) (thread : HbThread κ) :
    Alike near (advanceTurn s now thread) (advanceTurn t now' thread) := by
  have tables := alike.tables
  cases thread with
  | looping => exact alike
  | running todo shouldStop drain =>
    cases todo with
    | nil => exact ⟨tables, rfl, alike.wait, alike.log⟩
    | cons task rest => exact alike
  | draining =>
    refine ⟨tables.withSlots (slotsAlike_collectAll tables.slots now now'), ?_, alike.wait,
      alike.log⟩
    simp only [advanceTurn, threadAdvance]
    rw [todoAll_eq tables.slots now now']
  | finishing todo =>
    cases todo with
    | nil => exact ⟨tables, rfl, alike.wait, alike.log⟩
    | cons task rest => exact alike
  | marking =>
    exact ⟨⟨tables.slots, tables.initialized, rfl, rfl, rfl⟩, rfl, alike.wait, alike.log⟩
  | exited => exact alike

/-- A callback is called. -/
theorem Alike.called (alike : Alike near s t) (mono : Timespec) (task : HbTask κ) (next : HbThread κ) :
    Alike near { s with thread := some next, log := s.log ++ [(mono, task)] }
      { t with thread := some next, log := t.log ++ [(mono, task)] } :=
  ⟨alike.tables, rfl, alike.wait, by rw [alike.log]⟩

/-- The thread reads the clock in this moment and collects the due tasks. -/
def collects (s : Clocked κ) (moment : Moment κ) : Bool :=
  match s.thread, moment.turn with
  | some .looping, .thread spurious => !asleep s moment.mono spurious
  | _, _ => false

theorem Alike.threadTurn (moves : Moves near) (alike : Alike near s t) (mono : Timespec) (spurious : Bool)
    (inStep : collects s ⟨mono, .thread spurious⟩ = true →
      ClocksInStep now now' s.hb.slots t.hb.slots) :
    Alike near (threadTurn s mono now spurious) (threadTurn t mono now' spurious) := by
  have sleeping : asleep s mono spurious = asleep t mono spurious := by
    rw [asleep, asleep, alike.wait]
  unfold collects at inStep
  unfold Core.threadTurn
  rw [← alike.thread]
  cases thread : s.thread with
  | none => exact alike
  | some place =>
    cases place with
    | looping =>
      rw [thread] at inStep
      dsimp only at inStep ⊢
      rw [← sleeping]
      cases awake : asleep s mono spurious with
      | true => exact alike
      | false =>
        rw [awake] at inStep
        exact alike.collect moves (inStep rfl) mono
    | running todo shouldStop drain =>
      cases todo with
      | nil => exact alike.advance now now' _
      | cons task rest => exact alike.called mono task _
    | draining => exact alike.advance now now' _
    | finishing todo =>
      cases todo with
      | nil => exact alike.advance now now' _
      | cons task rest => exact alike.called mono task _
    | marking => exact alike.advance now now' _
    | exited => exact alike

/-- When the thread collects the due tasks, the two clocks are in step for every
active task. -/
def InStep (s t : Clocked κ) (moment : Moment κ) (now now' : Int) : Prop :=
  collects s moment = true → ClocksInStep now now' s.hb.slots t.hb.slots

instance (s t : Clocked κ) (moment : Moment κ) (now now' : Int) :
    Decidable (InStep s t moment now now') :=
  inferInstanceAs (Decidable (_ → _))

/-- A moment whose readings are in step leaves the two runs alike. -/
theorem Alike.step (moves : Moves near) (alike : Alike near s t) {moment : Moment κ}
    (reads : near now now') (inStep : InStep s t moment now now') :
    Alike near (clockedStep s moment now) (clockedStep t moment now') := by
  obtain ⟨mono, turn⟩ := moment
  have tables := alike.tables
  cases turn with
  | register task =>
    obtain ⟨same, next⟩ := tables.register moves reads task
    simp only [clockedStep]
    rw [same]
    exact alike.signal next _
  | unregister name =>
    obtain ⟨same, next⟩ := tables.unregister name
    simp only [clockedStep]
    rw [same]
    exact alike.signal next _
  | update name periodSec initialDelaySec ctx =>
    obtain ⟨same, next⟩ := tables.updated moves reads name periodSec initialDelaySec ctx
    simp only [clockedStep]
    rw [same]
    exact alike.signal next _
  | start created =>
    refine ⟨tables.start created, ?_, ?_, alike.log⟩
    · simp only [clockedStep, tables.running, alike.thread]
    · simp only [clockedStep, tables.running, alike.wait]
  | shutdown drain =>
    obtain ⟨same, next⟩ := tables.stop (drain ≠ 0)
    simp only [clockedStep]
    rw [same]
    exact alike.signal next _
  | thread spurious => exact alike.threadTurn moves mono spurious inStep

/-! ## Whole runs -/

/-- A moment of both runs, with the reading of `time(NULL)` in each. -/
abbrev Reading (κ : Type) := Moment κ × Int × Int

/-- One moment, in both runs. -/
def bothStep (both : Clocked κ × Clocked κ) (read : Reading κ) :
    Option (Clocked κ × Clocked κ) :=
  some (clockedStep both.1 read.1 read.2.1, clockedStep both.2 read.1 read.2.2)

/-- The readings of the moment are in step. -/
def ReadInStep (both : Clocked κ × Clocked κ) (read : Reading κ) : Prop :=
  InStep both.1 both.2 read.1 read.2.1 read.2.2

instance (both : Clocked κ × Clocked κ) (read : Reading κ) : Decidable (ReadInStep both read) :=
  inferInstanceAs (Decidable (InStep _ _ _ _ _))

/-- The wall clock of the second run is `offset` seconds off, and neither shows a
time in front of the Epoch. -/
def ReadApart (offset : Int) (_ : Clocked κ × Clocked κ) (read : Reading κ) : Prop :=
  read.2.2 = read.2.1 + offset ∧ 0 ≤ read.2.1 ∧ 0 ≤ read.2.2

variable {both : Clocked κ × Clocked κ} {read : Reading κ} {offset : Int}

theorem alike_start : Alike near ({} : Clocked κ) {} :=
  ⟨⟨fun _ => slotAlike_empty, rfl, rfl, rfl, rfl⟩, rfl, rfl, rfl⟩

/-- Due times `offset` seconds off. -/
private theorem moves_apart : Moves fun a b => b = a + offset := by
  intro a b n same
  omega

/-- Clocks that stay apart by the same offset are in step. -/
theorem readInStep_of_apart (alike : Alike (fun a b => b = a + offset) both.1 both.2)
    (apart : ReadApart offset both read) : ReadInStep both read := by
  intro _ i active
  obtain ⟨same, epoch, epoch'⟩ := apart
  have times : (both.2.hb.slots i).nextRun = (both.1.hb.slots i).nextRun + offset :=
    (alike.tables.slots i).times active
  exact ⟨by omega, fun later => ⟨by omega, by omega⟩⟩

/-- Two runs whose wall clocks have a constant offset call the same tasks at the
same instants. -/
theorem constant_offset_agree (reached : Reach bothStep (ReadApart offset) ({}, {}) both) :
    both.1.log = both.2.log := by
  suffices alike : Alike (fun a b => b = a + offset) both.1 both.2 from alike.log
  refine reached.invariant (P := fun both => Alike (fun a b => b = a + offset) both.1 both.2)
    alike_start fun both read both' alike apart taken => ?_
  cases taken
  exact alike.step moves_apart apart.1 (readInStep_of_apart alike apart)

/-- Two runs with the same calls at the same instants call the same tasks at the
same instants, when at every collection the two wall clocks are in step: for
every active task they show as long a time since, or until, it was due. -/
theorem clocks_in_step_agree (reached : Reach bothStep ReadInStep ({}, {}) both) :
    both.1.log = both.2.log := by
  suffices alike : Alike (fun _ _ => True) both.1 both.2 from alike.log
  refine reached.invariant (P := fun both => Alike (fun _ _ => True) both.1 both.2)
    alike_start fun both read both' alike inStep taken => ?_
  cases taken
  exact alike.step (fun _ _ _ _ => trivial) trivial inStep

/-- A task that is due ten seconds after it is registered. -/
def inTenSeconds : HbTask Unit :=
  { name := some (lit "a"), periodSec := 10, initialDelaySec := 10, cb := some () }

/-- The thread is started and a task registered; the thread waits, wakes up ten
seconds later, and goes on. The readings of the first run start at `wall` and go
on by `later`, those of the second at `wall'` and `later'`. -/
def tenSeconds (wall wall' later later' : Int) : List (Reading Unit) :=
  [(⟨⟨5, 0⟩, .start true⟩, wall, wall'), (⟨⟨5, 0⟩, .register inTenSeconds⟩, wall, wall'),
    (⟨⟨5, 0⟩, .thread false⟩, wall, wall'),
    (⟨⟨15, 0⟩, .thread false⟩, wall + later, wall' + later'),
    (⟨⟨15, 0⟩, .thread false⟩, wall + later, wall' + later')]

/-- With another wall clock that runs at the same pace, the task is called in both. -/
theorem clocks_in_step_agree_tenSeconds :
    ∃ both : Clocked Unit × Clocked Unit, Reach bothStep ReadInStep ({}, {}) both ∧
      both.1.log = [(⟨15, 0⟩, inTenSeconds)] ∧ both.1.log = both.2.log := by
  have ran : (Transition.run (Transition.guarded ReadInStep bothStep) ({}, {})
      (tenSeconds 1700000000 86400 10 10)).map (·.1.log) = some [(⟨15, 0⟩, inTenSeconds)] := by
    decide +kernel
  obtain ⟨both, reached, called⟩ := Transition.exists_reach_of_run ran
  exact ⟨both, reached, called, clocks_in_step_agree reached⟩

/-! ## Clocks that are not in step -/

/-- A task that is due some time after it is registered. -/
def delayed (delaySec : UInt32) : HbTask Unit :=
  { name := some (lit "a"), periodSec := 1, initialDelaySec := delaySec, cb := some () }

/-- The table with this one task, registered when `time(NULL)` read `wall`. -/
def oneSlot (delaySec : UInt32) (wall : Int) : Fin hbMaxTasks → HbSlot Unit :=
  Function.update (fun _ => {}) ⟨0, by decide⟩
    { task := delayed delaySec, nextRun := wall + delaySec.toNat, active := true }

/-- The thread is at the head of its loop, with this table. -/
def waitingFor (delaySec : UInt32) (wall : Int) : Clocked Unit where
  hb := { slots := oneSlot delaySec wall, initialized := true, running := true }
  thread := some .looping

theorem due_oneSlot (delaySec : UInt32) (wall now : Int) (i : Fin hbMaxTasks) :
    due now (oneSlot delaySec wall i) =
      (decide (i.val = 0) && decide (wall + delaySec.toNat ≤ now)) := by
  by_cases same : i = ⟨0, by decide⟩
  · subst same
    simp [due, oneSlot]
  · have later : i.val ≠ 0 := fun zero => same (Fin.ext zero)
    rw [oneSlot, Function.update_of_ne same]
    simp [due, later]

theorem todo_oneSlot (delaySec : UInt32) (wall now : Int) :
    (hbCollectDueTasks (oneSlot delaySec wall) now).todo =
      if wall + delaySec.toNat ≤ now then [delayed delaySec] else [] := by
  rw [(hbCollectDueTasks_spec _ now).2, tasksOf]
  simp only [due_oneSlot]
  by_cases late : wall + delaySec.toNat ≤ now
  · simp only [late]
    rfl
  · simp only [late]
    rfl

/-- The thread calls the task in its next two turns if it is due, and not otherwise. -/
theorem log_waitingFor (delaySec : UInt32) (wall now : Int) (mono : Timespec) :
    (threadTurn (threadTurn (waitingFor delaySec wall) mono now false) mono now false).log =
      if wall + delaySec.toNat ≤ now then [(mono, delayed delaySec)] else [] := by
  have todo := todo_oneSlot delaySec wall now
  have first : threadTurn (waitingFor delaySec wall) mono now false =
      collectTurn (waitingFor delaySec wall) mono now := rfl
  have place : (collectTurn (waitingFor delaySec wall) mono now).thread =
      some (if (hbCollectDueTasks (oneSlot delaySec wall) now).todo = [] then .looping
        else .running (hbCollectDueTasks (oneSlot delaySec wall) now).todo false false) := by
    simp [collectTurn, threadCollect, waitingFor]
  rw [todo] at place
  rw [first, threadTurn, place]
  by_cases late : wall + delaySec.toNat ≤ now
  · rw [if_pos late, if_neg (by simp), if_pos late]
    rfl
  · rw [if_neg late, if_pos rfl, if_neg late]
    dsimp only
    split
    · rfl
    · rfl

/-- The thread is started, the task registered, and the thread given two turns. -/
def lateTurns (delaySec : UInt32) (wall wall' now now' : Int) : List (Reading Unit) :=
  [(⟨⟨5, 0⟩, .start true⟩, wall, wall'), (⟨⟨5, 0⟩, .register (delayed delaySec)⟩, wall, wall'),
    (⟨⟨15, 0⟩, .thread false⟩, now, now'), (⟨⟨15, 0⟩, .thread false⟩, now, now')]

/-- Wall clocks that have moved by different amounts since a task was registered
call it at different instants, for some delay it may be registered with. -/
theorem clocks_apart_seen {wall wall' now now' : Int} (apart : now - wall < now' - wall')
    (forward : 0 ≤ now' - wall') (small : now - wall < 2 ^ 32 - 1) :
    ∃ delaySec both, Transition.run bothStep ({}, {})
        (lateTurns delaySec wall wall' now now') = some both ∧
      both.1.log = [] ∧ both.2.log = [(⟨15, 0⟩, delayed delaySec)] := by
  obtain ⟨delay, early, late, fits⟩ : ∃ delay : Nat, now < wall + delay ∧ wall' + delay ≤ now' ∧
      delay < 2 ^ 32 := ⟨(max 0 (now - wall + 1)).toNat, by omega, by omega, by omega⟩
  have exact_delay : (UInt32.ofNat delay).toNat = delay := UInt32.toNat_ofNat_of_lt' fits
  refine ⟨.ofNat delay, _, rfl, ?_, ?_⟩
  · refine (log_waitingFor (.ofNat delay) wall now ⟨15, 0⟩).trans (if_neg ?_)
    rw [exact_delay]
    omega
  · refine (log_waitingFor (.ofNat delay) wall' now' ⟨15, 0⟩).trans (if_pos ?_)
    rw [exact_delay]
    exact late

/-- When the wall clock of the second run is set back by an hour, only the first
run calls the task. -/
theorem step_back_delays_task :
    ∃ both : Clocked Unit × Clocked Unit, Reach bothStep Any ({}, {}) both ∧
      both.1.log = [(⟨15, 0⟩, inTenSeconds)] ∧ both.2.log = [] := by
  have ran : (Transition.run (Transition.guarded Any bothStep) ({}, {})
      (tenSeconds 1700000000 1700000000 10 (10 - 3600))).map (fun both => (both.1.log, both.2.log)) =
        some ([(⟨15, 0⟩, inTenSeconds)], []) := by
    decide +kernel
  obtain ⟨both, reached, logs⟩ := Transition.exists_reach_of_run ran
  obtain ⟨first, second⟩ := Prod.mk.inj logs
  exact ⟨both, reached, first, second⟩

end Miniweb.HeartbeatClockProofs
