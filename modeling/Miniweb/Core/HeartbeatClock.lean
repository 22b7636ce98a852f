import Mathlib
import Miniweb.Core.Heartbeat

/-! The scheduler of `src/core/heartbeat.c` between its two clocks. Due times
are readings of `time(NULL)`, the clock of the wall; the thread sleeps on
`g_hb_cond` until an instant of `CLOCK_MONOTONIC`, and callbacks run at such
instants. A run is a list of moments: in each a caller makes one call, or the
processor is given to the thread, for one locked section or one callback. When
that is, the wake-ups without a reason among it, is up to the kernel. -/
namespace Miniweb.Core

open Miniweb.Lib.CString

variable {κ : Type}

/-- `HB_IDLE_WAIT_SEC`. -/
abbrev hbIdleWaitSec : Int := 3600

/-- `struct timespec`, an instant of `CLOCK_MONOTONIC`. -/
structure Timespec where
  sec : Int
  nsec : Int
  deriving DecidableEq, Repr

/-- The instant is not in the future at `now`. -/
def Timespec.reached (instant now : Timespec) : Bool :=
  instant.sec < now.sec || (instant.sec == now.sec && instant.nsec ≤ now.nsec)

/-- The deadline `hb_wait_for_next_tick` hands to `pthread_cond_timedwait`. -/
def hbWaitForNextTick (now wakeAt : Int) (nowMono : Timespec) : Timespec :=
  if wakeAt ≠ 0 ∧ wakeAt > now then { nowMono with sec := nowMono.sec + (wakeAt - now) }
  else if wakeAt = 0 then { nowMono with sec := nowMono.sec + hbIdleWaitSec }
  else nowMono

/-- The scheduler, its thread once it is created, and what has been called. -/
structure Clocked (κ : Type) where
  hb : Heartbeat κ := {}
  thread : Option (HbThread κ) := none
  /-- The deadline, while the thread is in `pthread_cond_timedwait` and nothing
  has signalled `g_hb_cond` since. -/
  wait : Option Timespec := none
  /-- The callbacks that have been called, and when. -/
  log : List (Timespec × HbTask κ) := []

/-- What happens in a moment. -/
inductive Turn (κ : Type) where
  | register (task : HbTask κ)
  | unregister (name : Option Bytes)
  | update (name : Option Bytes) (periodSec initialDelaySec : UInt32) (ctx : Nat)
  | start (created : Bool)
  /-- The locked section of `heartbeat_shutdown`. -/
  | shutdown (drain : Int)
  /-- The thread is given the processor; the wait may end without a reason. -/
  | thread (spurious : Bool)

/-- One moment of a run. -/
structure Moment (κ : Type) where
  mono : Timespec
  turn : Turn κ

/-- `pthread_cond_signal(&g_hb_cond)`, if it is called. -/
def signal (s : Clocked κ) (called : Bool) : Clocked κ :=
  if called then { s with wait := none } else s

/-- The thread sleeps on: it waits, and neither is the deadline reached nor does
the wait end by itself. -/
def asleep (s : Clocked κ) (mono : Timespec) (spurious : Bool) : Bool :=
  match s.wait with
  | none => false
  | some deadline => !deadline.reached mono && !spurious

/-- The first locked section of a round, with the wait at its end. -/
def collectTurn (s : Clocked κ) (mono : Timespec) (wall : Int) : Clocked κ :=
  let due := hbCollectDueTasks s.hb.slots wall
  let (hb, next) := threadCollect s.hb wall
  { s with
    hb
    thread := some next
    wait :=
      if due.todo = [] ∧ !s.hb.stopRequested then some (hbWaitForNextTick wall due.wakeAt mono)
      else none }

/-- The thread past the end of a batch, or at a later locked section. -/
def advanceTurn (s : Clocked κ) (wall : Int) (thread : HbThread κ) : Clocked κ :=
  match threadAdvance s.hb wall thread with
  | none => s
  | some (hb, next) => { s with hb, thread := some next }

/-- What the thread does next, from where it stands. -/
def threadTurn (s : Clocked κ) (mono : Timespec) (wall : Int) (spurious : Bool) : Clocked κ :=
  match s.thread with
  | none => s
  | some .looping => if asleep s mono spurious then s else collectTurn s mono wall
  | some (.running (task :: rest) shouldStop drain) =>
    { s with thread := some (.running rest shouldStop drain), log := s.log ++ [(mono, task)] }
  | some (.finishing (task :: rest)) =>
    { s with thread := some (.finishing rest), log := s.log ++ [(mono, task)] }
  | some thread => advanceTurn s wall thread

/-- One moment, in which `time(NULL)` reads `wall`. -/
def clockedStep (s : Clocked κ) (moment : Moment κ) (wall : Int) : Clocked κ :=
  match moment.turn with
  | .register task =>
    let result := heartbeatRegister s.hb task wall
    signal { s with hb := result.2 } (result.1 = .inserted)
  | .unregister name =>
    let result := heartbeatUnregister s.hb name
    signal { s with hb := result.2 } (result.1 = 0)
  | .update name periodSec initialDelaySec ctx =>
    let result := heartbeatUpdate s.hb name periodSec initialDelaySec ctx wall
    signal { s with hb := result.2 } (result.1 = 0)
  | .start created =>
    { s with
      hb := (heartbeatStart s.hb created).2
      thread := if !s.hb.running ∧ created then some .looping else s.thread
      wait := if !s.hb.running ∧ created then none else s.wait }
  | .shutdown drain =>
    let result := requestStop s.hb (drain ≠ 0)
    signal { s with hb := result.2 } result.1
  | .thread spurious => threadTurn s moment.mono wall spurious

end Miniweb.Core
