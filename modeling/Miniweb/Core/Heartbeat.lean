import Mathlib
import Miniweb.Lib.CString

/-! `src/core/heartbeat.c`, `heartbeat_schedule.c` and `heartbeat_dispatch.c`:
a table of periodic tasks and the thread that runs them. A function here is one
section under `g_hb_lock`; the thread runs its callbacks between two sections,
with the lock given up. Callbacks are pointers of an arbitrary type. -/
namespace Miniweb.Core

open Miniweb.Lib.CString

/-- `HB_MAX_TASKS`. -/
abbrev hbMaxTasks : Nat := 32

variable {κ : Type}

/-- `struct hb_task`; `none` is a NULL pointer. `ctx` is an opaque address. -/
structure HbTask (κ : Type) where
  name : Option Bytes := none
  periodSec : UInt32 := 0
  initialDelaySec : UInt32 := 0
  cb : Option κ := none
  ctx : Nat := 0
  deriving DecidableEq, Repr

/-- `struct hb_task_stats`. -/
structure HbTaskStats where
  runs : UInt64 := 0
  overruns : UInt64 := 0
  lastRun : Int := 0
  lastError : Int := 0
  deriving DecidableEq, Repr

/-- `hb_slot_t`; the default is the zeroed slot. -/
structure HbSlot (κ : Type) where
  task : HbTask κ := {}
  nextRun : Int := 0
  stats : HbTaskStats := {}
  active : Bool := false
  deriving DecidableEq, Repr

/-- The globals of the scheduler. -/
structure Heartbeat (κ : Type) where
  slots : Fin hbMaxTasks → HbSlot κ := fun _ => {}
  initialized : Bool := false
  running : Bool := false
  stopRequested : Bool := false
  drainOnStop : Bool := false

/-- `enum hb_register_result`. -/
inductive HbRegisterResult where
  | error
  | duplicate
  | inserted
  deriving DecidableEq, Repr

/-- The number a result stands for. -/
def HbRegisterResult.code : HbRegisterResult → Int
  | .error => -1
  | .duplicate => 0
  | .inserted => 1

/-- `heartbeat_init`. -/
def heartbeatInit (hb : Heartbeat κ) : Heartbeat κ :=
  if hb.initialized then hb else { hb with slots := fun _ => {}, initialized := true }

/-- The slot with this index is active under this name. -/
def hasName (hb : Heartbeat κ) (name : Option Bytes) (i : Fin hbMaxTasks) : Bool :=
  (hb.slots i).active && (hb.slots i).task.name == name

/-- `heartbeat_register` at the time `now`. -/
def heartbeatRegister (hb : Heartbeat κ) (task : HbTask κ) (now : Int) :
    HbRegisterResult × Heartbeat κ :=
  if task.name = none ∨ task.cb.isNone ∨ task.periodSec = 0 then (.error, hb)
  else
    let hb := heartbeatInit hb
    if (List.finRange hbMaxTasks).any (hasName hb task.name) then (.duplicate, hb)
    else
      match (List.finRange hbMaxTasks).find? fun i => !(hb.slots i).active with
      | none => (.error, hb)
      | some i =>
        let slot : HbSlot κ :=
          { task, nextRun := now + task.initialDelaySec.toNat, stats := {}, active := true }
        (.inserted, { hb with slots := Function.update hb.slots i slot })

/-- `heartbeat_unregister`. -/
def heartbeatUnregister (hb : Heartbeat κ) (name : Option Bytes) : Int × Heartbeat κ :=
  if name = none then (-1, hb)
  else
    let hb := heartbeatInit hb
    match (List.finRange hbMaxTasks).find? (hasName hb name) with
    | none => (-1, hb)
    | some i => (0, { hb with slots := Function.update hb.slots i {} })

/-- `heartbeat_update` at the time `now`. -/
def heartbeatUpdate (hb : Heartbeat κ) (name : Option Bytes) (periodSec initialDelaySec : UInt32)
    (ctx : Nat) (now : Int) : Int × Heartbeat κ :=
  if name = none ∨ periodSec = 0 then (-1, hb)
  else
    let hb := heartbeatInit hb
    match (List.finRange hbMaxTasks).find? (hasName hb name) with
    | none => (-1, hb)
    | some i =>
      let slot := hb.slots i
      let slot :=
        { slot with
          task := { slot.task with periodSec, initialDelaySec, ctx }
          nextRun := now + initialDelaySec.toNat }
      (0, { hb with slots := Function.update hb.slots i slot })

/-- `heartbeat_get_stats` into a structure of the caller's; `none` for its -1. -/
def heartbeatGetStats (hb : Heartbeat κ) (name : Option Bytes) :
    Option HbTaskStats × Heartbeat κ :=
  if name = none then (none, hb)
  else
    let hb := heartbeatInit hb
    (((List.finRange hbMaxTasks).find? (hasName hb name)).map fun i => (hb.slots i).stats, hb)

/-- `heartbeat_start`; `created` is whether `pthread_create` succeeds when it is
called. -/
def heartbeatStart (hb : Heartbeat κ) (created : Bool) : Int × Heartbeat κ :=
  let hb := heartbeatInit hb
  if hb.running then (0, hb)
  else
    let hb := { hb with stopRequested := false, drainOnStop := false }
    if created then (0, { hb with running := true }) else (-1, hb)

/-- The locked section of `heartbeat_shutdown`: whether the call goes on to join
the thread, and the scheduler afterwards. -/
def requestStop (hb : Heartbeat κ) (drain : Bool) : Bool × Heartbeat κ :=
  let hb := heartbeatInit hb
  if hb.running then (true, { hb with stopRequested := true, drainOnStop := drain }) else (false, hb)

/-! ## The thread -/

/-- `hb_batch_push`; the list is `tasks[]` up to `count`. -/
def hbBatchPush (batch : List (HbTask κ)) (task : HbTask κ) : List (HbTask κ) :=
  if hbMaxTasks ≤ batch.length then batch else batch ++ [task]

/-- What the loop of `hb_collect_due_tasks` carries. -/
structure Collecting (κ : Type) where
  slots : Fin hbMaxTasks → HbSlot κ
  wakeAt : Int
  todo : List (HbTask κ)

/-- One round of the loop of `hb_collect_due_tasks`. -/
def collectSlot (now : Int) (c : Collecting κ) (i : Fin hbMaxTasks) : Collecting κ :=
  let slot := c.slots i
  if !slot.active then c
  else
    let wakeAt := if c.wakeAt = 0 ∨ slot.nextRun < c.wakeAt then slot.nextRun else c.wakeAt
    if now < slot.nextRun then { c with wakeAt }
    else
      let period : Int := slot.task.periodSec.toNat
      let elapsed := now - slot.nextRun
      let missed : UInt64 := if period > 0 ∧ elapsed > 0 then .ofNat (elapsed / period).toNat else 0
      let stats : HbTaskStats :=
        { runs := slot.stats.runs + 1
          overruns := slot.stats.overruns + missed
          lastRun := now
          lastError := 0 }
      let nextRun := slot.nextRun + ((missed + 1) * slot.task.periodSec.toUInt64).toInt64.toInt
      { slots := Function.update c.slots i { slot with stats, nextRun }
        wakeAt
        todo := hbBatchPush c.todo slot.task }

/-- `hb_collect_due_tasks` on an empty batch. -/
def hbCollectDueTasks (slots : Fin hbMaxTasks → HbSlot κ) (now : Int) : Collecting κ :=
  (List.finRange hbMaxTasks).foldl (collectSlot now) { slots, wakeAt := 0, todo := [] }

/-- One round of the loop of `hb_collect_all_active`. -/
def collectActive (now : Int) (c : Collecting κ) (i : Fin hbMaxTasks) : Collecting κ :=
  let slot := c.slots i
  if !slot.active then c
  else
    let stats := { slot.stats with runs := slot.stats.runs + 1, lastRun := now, lastError := 0 }
    { c with
      slots := Function.update c.slots i { slot with stats }
      todo := hbBatchPush c.todo slot.task }

/-- `hb_collect_all_active` on an empty batch. -/
def hbCollectAllActive (slots : Fin hbMaxTasks → HbSlot κ) (now : Int) : Collecting κ :=
  (List.finRange hbMaxTasks).foldl (collectActive now) { slots, wakeAt := 0, todo := [] }

/-- `hb_mark_stopped`. -/
def hbMarkStopped (hb : Heartbeat κ) : Heartbeat κ :=
  { hb with running := false, stopRequested := false, drainOnStop := false }

/-- Where `heartbeat_thread` stands, outside its locked sections. -/
inductive HbThread (κ : Type) where
  /-- At the head of its loop. -/
  | looping
  /-- In `hb_batch_run`, with the tasks it has not called yet. -/
  | running (todo : List (HbTask κ)) (shouldStop drain : Bool)
  /-- About to collect the final tasks. -/
  | draining
  | finishing (todo : List (HbTask κ))
  | marking
  | exited
  deriving DecidableEq, Repr

/-- The first locked section of a round. With nothing due and no stop requested
it waits, and the round starts over. -/
def threadCollect (hb : Heartbeat κ) (now : Int) : Heartbeat κ × HbThread κ :=
  let due := hbCollectDueTasks hb.slots now
  ({ hb with slots := due.slots },
    if due.todo = [] ∧ !hb.stopRequested then .looping
    else .running due.todo hb.stopRequested hb.drainOnStop)

/-- The thread past the end of a batch, or at its later locked sections. -/
def threadAdvance (hb : Heartbeat κ) (now : Int) : HbThread κ → Option (Heartbeat κ × HbThread κ)
  | .running [] shouldStop drain =>
    some (hb, if !shouldStop then .looping else if drain then .draining else .marking)
  | .draining =>
    let all := hbCollectAllActive hb.slots now
    some ({ hb with slots := all.slots }, .finishing all.todo)
  | .finishing [] => some (hb, .marking)
  | .marking => some (hbMarkStopped hb, .exited)
  | _ => none

end Miniweb.Core
