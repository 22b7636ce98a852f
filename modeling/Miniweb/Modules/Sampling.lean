import Mathlib
import Miniweb.Core.Heartbeat

/-! The sampling rings of `src/modules/metrics/metrics_snapshot.c` and
`src/modules/networking/networking_module.c`, and the life of both around one
heartbeat scheduler: each is set up by the first request that needs it, filled
by the scheduler's thread, and freed by `main` when the server has stopped. -/
namespace Miniweb.Modules

open Miniweb.Core Miniweb.Lib.CString

variable {α : Type}

/-! ## The rings -/

/-- The two modules that sample. -/
inductive Sampler where
  | metrics
  | networking
  deriving DecidableEq, Repr

instance : Fintype Sampler :=
  ⟨{.metrics, .networking}, fun m => by cases m <;> simp⟩

/-- `RING_CAPACITY` and `NETWORK_RING_CAPACITY`: 1 MiB of samples of 56 and of
14320 bytes. -/
def Sampler.capacity : Sampler → Nat
  | .metrics => 1024 * 1024 / 56
  | .networking => 1024 * 1024 / 14320

/-- What `buf` points to; a cell that was not written yet holds nothing. -/
inductive Block (α : Type) where
  | null
  | live (cells : Nat → Option α)
  /-- Freed, with the pointer still in place. -/
  | freed

/-- The block is allocated. -/
def Block.isLive : Block α → Bool
  | .live _ => true
  | _ => false

/-- `MetricRing` and `NetworkingRing`. -/
structure SampleRing (α : Type) where
  buf : Block α := .null
  head : Nat := 0
  count : Nat := 0

/-- `ring_init` and `networking_ring_init`; `allocated` is whether `malloc`
succeeds. -/
def ringInit (r : SampleRing α) (allocated : Bool) : SampleRing α :=
  if allocated then { buf := .live fun _ => none } else { r with buf := .null }

/-- `ring_push` and `networking_ring_push`. A push into a block that is not
there writes to memory the ring does not own. -/
def ringPush (capacity : Nat) (r : SampleRing α) (sample : α) : SampleRing α :=
  { buf := match r.buf with
      | .live cells => .live (Function.update cells r.head (some sample))
      | block => block
    head := (r.head + 1) % capacity
    count := if r.count < capacity then r.count + 1 else r.count }

/-- `ring_last`: the samples it copies to `out`, of which it returns the number; `ready` is
`g_metrics_ring_ready`. A freed block gives cells that hold nothing. -/
def ringLast (ready : Bool) (r : SampleRing α) (n : Nat) : List (Option α) :=
  if !ready then []
  else
    let copied (cells : Nat → Option α) : List (Option α) :=
      let n := if r.count < n then r.count else n
      let start := (r.head + Sampler.metrics.capacity - n) % Sampler.metrics.capacity
      (List.range n).map fun i => cells ((start + i) % Sampler.metrics.capacity)
    match r.buf with
    | .null => []
    | .live cells => copied cells
    | .freed => copied fun _ => none

/-- `networking_ring_last`: what it copies to `*out`, `none` for its 0. -/
def networkingRingLast (r : SampleRing α) : Option (Option α) :=
  let copied (cells : Nat → Option α) : Option (Option α) :=
    if r.count = 0 then none
    else
      let idx := (r.head + Sampler.networking.capacity - 1) % Sampler.networking.capacity
      some (cells idx)
  match r.buf with
  | .null => none
  | .live cells => copied cells
  | .freed => copied fun _ => none

/-- `free(r->buf)`. -/
def freeBuf (r : SampleRing α) : SampleRing α :=
  match r.buf with
  | .live _ => { r with buf := .freed }
  | _ => r

/-! ## The system -/

/-- The callbacks in the scheduler's table. -/
inductive Callback where
  /-- `metrics_heartbeat_cb` and `networking_heartbeat_cb`. -/
  | sampler (m : Sampler)
  | other (id : Nat)
  deriving DecidableEq, Repr

/-- The task a module registers. -/
def Sampler.task : Sampler → HbTask Callback
  | .metrics => { name := some (lit "metrics.sample"), periodSec := 1, cb := some (.sampler .metrics) }
  | .networking =>
    { name := some (lit "networking.sample"), periodSec := 1, cb := some (.sampler .networking) }

/-- Where `metrics_ring_bootstrap` or `networking_ring_bootstrap` stands, named
by what it does next. `pthread_once` runs each once. -/
inductive Boot where
  | waiting
  | registering
  | starting
  /-- Has failed, and frees the ring. -/
  | freeing
  | clearing
  | finished
  deriving DecidableEq, Repr

/-- Where `main` stands. -/
inductive Main where
  /-- In `miniweb_server_run`, which joins the workers before it returns. -/
  | serving
  | cleaningNetworking
  | cleaningMetrics
  /-- In `ring_free`, between `free` and the reset of the pointer. -/
  | clearingMetrics
  | cleaned
  deriving DecidableEq, Repr

/-- The scheduler, the rings and the threads around them. -/
structure Sampling (α : Type) where
  hb : Heartbeat Callback
  thread : Option (HbThread Callback)
  rings : Sampler → SampleRing α
  boots : Sampler → Boot
  metricsReady : Bool
  main : Main

/-- A process that has served no request yet. `others` are tasks that something
else has registered; with none the scheduler is as the loader left it. -/
def samplingStart (others : Fin hbMaxTasks → Option (Bytes × UInt32 × Nat)) : Sampling α where
  hb :=
    { slots := fun i =>
        match others i with
        | none => {}
        | some (name, periodSec, id) =>
          { task := { name := some name, periodSec, cb := some (.other id) }, active := true }
      initialized := (List.finRange hbMaxTasks).any fun i => (others i).isSome }
  thread := none
  rings := fun _ => {}
  boots := fun _ => .waiting
  metricsReady := false
  main := .serving

/-- What can happen. The first five are steps of a worker in a bootstrap, the
next four of `main`, the last three of the scheduler's thread. -/
inductive SamplingAct (α : Type) where
  | init (m : Sampler) (allocated : Bool)
  | register (m : Sampler) (now : Int)
  | start (m : Sampler) (created : Bool)
  | free (m : Sampler)
  | clear (m : Sampler)
  /-- `miniweb_server_run` returns. -/
  | join
  | cleanNetworking
  | cleanMetrics
  | clearMetrics
  | tick (now : Int)
  | callback (sample : α)
  | advance (now : Int)

namespace Sampling

def setRing (s : Sampling α) (m : Sampler) (ring : SampleRing α) : Sampling α :=
  { s with rings := Function.update s.rings m ring }

def setBoot (s : Sampling α) (m : Sampler) (boot : Boot) : Sampling α :=
  { s with boots := Function.update s.boots m boot }

/-- The reset behind `free`: the metrics ring loses its counters too. -/
def clearRing (r : SampleRing α) : Sampler → SampleRing α
  | .metrics => { buf := .null, head := 0, count := 0 }
  | .networking => { r with buf := .null }

/-- The callback of a task. -/
def call (s : Sampling α) (task : HbTask Callback) (sample : α) : Sampling α :=
  match task.cb with
  | some (.sampler m) => s.setRing m (ringPush m.capacity (s.rings m) sample)
  | _ => s

/-- The steps of a bootstrap. -/
def bootStep (s : Sampling α) : SamplingAct α → Option (Sampling α)
  | .init m allocated =>
    if s.main = .serving ∧ s.boots m = .waiting then
      some ((s.setRing m (ringInit (s.rings m) allocated)).setBoot m
        (if allocated then .registering else .finished))
    else none
  | .register m now =>
    if s.boots m = .registering then
      let result := heartbeatRegister s.hb m.task now
      some ({ s with hb := result.2 }.setBoot m (if result.1.code < 0 then .freeing else .starting))
    else none
  | .start m created =>
    if s.boots m = .starting then
      let result := heartbeatStart s.hb created
      let thread := if !s.hb.running && created then some .looping else s.thread
      if result.1 ≠ 0 then some ({ s with hb := result.2, thread }.setBoot m .freeing)
      else
        some ({ s with
          hb := result.2
          thread
          metricsReady := s.metricsReady || decide (m = Sampler.metrics) }.setBoot m .finished)
    else none
  | .free m =>
    if s.boots m = .freeing then some ((s.setRing m (freeBuf (s.rings m))).setBoot m .clearing)
    else none
  | .clear m =>
    if s.boots m = .clearing then some ((s.setRing m (clearRing (s.rings m) m)).setBoot m .finished)
    else none
  | _ => none

/-- The steps of `main`. -/
def mainStep (s : Sampling α) : SamplingAct α → Option (Sampling α)
  | .join =>
    if s.main = .serving ∧ ∀ m, s.boots m = .waiting ∨ s.boots m = .finished then
      some { s with main := .cleaningNetworking }
    else none
  | .cleanNetworking =>
    if s.main = .cleaningNetworking then
      -- The pointer is reset under the ring's lock, which every push takes.
      match (s.rings .networking).buf with
      | .null => some { s with main := .cleaningMetrics }
      | _ => some { s.setRing .networking {} with main := .cleaningMetrics }
    else none
  | .cleanMetrics =>
    if s.main = .cleaningMetrics then
      if s.metricsReady then
        some { s.setRing .metrics (freeBuf (s.rings .metrics)) with main := .clearingMetrics }
      else some { s with main := .cleaned }
    else none
  | .clearMetrics =>
    if s.main = .clearingMetrics then
      some { s.setRing .metrics {} with metricsReady := false, main := .cleaned }
    else none
  | _ => none

/-- The steps of the scheduler's thread. -/
def threadStep (s : Sampling α) : SamplingAct α → Option (Sampling α)
  | .tick now =>
    match s.thread with
    | some .looping =>
      let result := threadCollect s.hb now
      some { s with hb := result.1, thread := some result.2 }
    | _ => none
  | .callback sample =>
    match s.thread with
    | some (.running (task :: rest) shouldStop drain) =>
      some { s.call task sample with thread := some (.running rest shouldStop drain) }
    | some (.finishing (task :: rest)) =>
      some { s.call task sample with thread := some (.finishing rest) }
    | _ => none
  | .advance now =>
    match s.thread with
    | none => none
    | some thread =>
      (threadAdvance s.hb now thread).map fun result =>
        { s with hb := result.1, thread := some result.2 }
  | _ => none

end Sampling

/-- One step of the system; `none` when it cannot be taken. -/
def samplingStep (s : Sampling α) (act : SamplingAct α) : Option (Sampling α) :=
  match act with
  | .init _ _ | .register _ _ | .start _ _ | .free _ | .clear _ => s.bootStep act
  | .join | .cleanNetworking | .cleanMetrics | .clearMetrics => s.mainStep act
  | .tick _ | .callback _ | .advance _ => s.threadStep act

end Miniweb.Modules
