import Miniweb.Lib.Published
import Miniweb.Lib.Transition
import Miniweb.Modules.MetricsJson
import Miniweb.Modules.Sampling

/-! `src/modules/metrics/metrics_snapshot.c`: the metrics document that the requests share with
the heartbeat. Any number of threads are in `get_system_metrics_json`, `metrics_heartbeat_cb` or
`metrics_module_cleanup`; a step is one statement of one of them. -/
namespace Miniweb.Modules.Metrics

open Miniweb.Lib.CString Miniweb.Lib.Published

/-! ## The document -/

/-- A C string in an array of `size` bytes. -/
abbrev Text (size : Nat) := { text : Bytes // text.length < size }

/-- The arrays of `build_system_metrics_json` when they are filled, but for the history. -/
structure MetricsTexts where
  timestamp : Text 64
  hostname : Text 256
  cpu : Text 256
  memory : Text 512
  load : Text 256
  os : Text 512
  uptime : Text 256
  disks : Text 2048
  ports : Text 2048
  topCpu : Text 2048
  topMem : Text 2048
  procStats : Text 256
  cpuFreq : Text 64

/-- The text of the last `snprintf`. -/
def documentText (texts : MetricsTexts) (history : Bytes) : Bytes :=
  lit "\x7b\"timestamp\": \"" ++ texts.timestamp.val ++ lit "\",\"hostname\": \"" ++
    texts.hostname.val ++ lit "\"," ++ texts.cpu.val ++ lit "," ++ texts.memory.val ++ lit "," ++
    texts.load.val ++ lit "," ++ texts.os.val ++ lit "," ++ texts.uptime.val ++ lit "," ++
    texts.disks.val ++ lit "," ++ texts.ports.val ++ lit "," ++ texts.topCpu.val ++ lit "," ++
    texts.topMem.val ++ lit "," ++ texts.procStats.val ++ lit "," ++ texts.cpuFreq.val ++ lit "," ++
    history ++ lit "\x7d"

/-- `build_system_metrics_json` when it has its buffer of `JSON_BUFFER_SIZE`. -/
def buildSystemMetricsJson (texts : MetricsTexts) (history : List MetricSample) : Bytes :=
  strlcpy 65536 (documentText texts (metricsJsonAppendHistory 32768 history))

/-- `METRICS_HISTORY_WINDOW`. -/
abbrev metricsHistoryWindow : Nat := 120

/-! ## The threads -/

/-- Who has called `metrics_snapshot_update`; a request has read the clock. -/
inductive UpdateFor where
  | bootstrap
  | request (now : Int)
  | heartbeat

/-- The next statement of `metrics_snapshot_update`. -/
inductive UpdateAt where
  /-- `ring_last`. -/
  | collect
  /-- `build_system_metrics_json`. -/
  | build (history : List (Option MetricSample))
  | lock (json : Nat)
  /-- `free(g_metrics_snapshot_json)`. -/
  | free (json : Nat)
  | place (json : Nat)
  /-- `g_metrics_snapshot_updated_at = time(NULL)`. -/
  | stamp
  | unlock

/-- The next statement of a thread. -/
inductive MetricsCall where
  | idle
  /-- `pthread_once`, and `metrics_ring_bootstrap` under it. -/
  | once
  | ringInit
  | register
  | start
  | ringFree
  | ready
  | update (why : UpdateFor) (at' : UpdateAt)
  /-- `time_t now = time(NULL)` in `get_system_metrics_json`. -/
  | clock
  | checkLock (now : Int)
  | check (now : Int)
  | checkUnlock (now : Int) (shouldRefresh : Bool)
  | copyLock (now : Int)
  /-- `if (g_metrics_snapshot_json)`. -/
  | read (now : Int)
  /-- The `strdup` of what the pointer was. -/
  | copy (now : Int) (json : Nat)
  | copyUnlock (now : Int) (copy : Option Bytes)
  /-- The statement with `fallback`; whether the lock is still held depends on the way here. -/
  | fallback (now : Int) (locked : Bool)
  | fallbackCopy (now : Int) (locked : Bool) (json : Nat)
  | fallbackUnlock (now : Int) (locked : Bool) (copy : Option Bytes)
  /-- `metrics_take_sample` and `ring_push`. -/
  | sample
  | cleanLock
  | cleanFree
  | cleanClear
  | cleanUnlock
  | cleanRing
  | cleanReady

/-- `g_metrics_once`. -/
inductive MetricsOnce where
  | untouched
  | running
  | finished
  deriving DecidableEq

/-- What a request that read the clock at `now` was given. -/
structure MetricsAnswer where
  now : Int
  reply : Option Bytes

/-- The globals of the module, and its threads. -/
structure MetricsServer (ι : Type) where
  ring : SampleRing MetricSample := {}
  ready : Bool := false
  once : MetricsOnce := .untouched
  /-- The task is in the scheduler's table. -/
  registered : Bool := false
  /-- `g_metrics_snapshot_json` and its lock. -/
  snapshot : Shared ι Bytes := {}
  updatedAt : Int := 0
  calls : ι → MetricsCall := fun _ => .idle
  now : Int
  answers : List MetricsAnswer := []

/-- The functions that are called from outside. -/
inductive MetricsFunction where
  | getSystemMetricsJson
  | metricsHeartbeatCb
  | metricsModuleCleanup
  deriving DecidableEq

/-- What a statement is answered. -/
inductive MetricsReply where
  | returned
  /-- `malloc`, `strdup`, `heartbeat_register` or `heartbeat_start` has succeeded, or not. -/
  | outcome (ok : Bool)
  /-- The sections, and what memory reads as that was never written; `none` without a buffer. -/
  | built (texts : Option (MetricsTexts × MetricSample))
  | sampled (sample : MetricSample)

/-- What happens. The clock only goes forward. -/
inductive MetricsAct (ι : Type) where
  | tick (seconds : Nat)
  | call (i : ι) (f : MetricsFunction)
  | step (i : ι) (reply : MetricsReply)

variable {ι : Type} [DecidableEq ι]

/-- A thread goes on to its next statement. -/
def MetricsServer.goto (s : MetricsServer ι) (i : ι) (call : MetricsCall) : MetricsServer ι :=
  { s with calls := Function.update s.calls i call }

@[simp] theorem MetricsServer.calls_goto (s : MetricsServer ι) (i : ι) (call : MetricsCall) :
    (s.goto i call).calls = Function.update s.calls i call := rfl

@[simp] theorem MetricsServer.snapshot_goto (s : MetricsServer ι) (i : ι) (call : MetricsCall) :
    (s.goto i call).snapshot = s.snapshot := rfl

/-- A request has its answer. -/
def MetricsServer.answer (s : MetricsServer ι) (i : ι) (now : Int) (reply : Option Bytes) :
    MetricsServer ι :=
  ({ s with answers := s.answers ++ [{ now, reply }] } : MetricsServer ι).goto i .idle

/-- `metrics_snapshot_update` returns. -/
def MetricsServer.updated (s : MetricsServer ι) (i : ι) : UpdateFor → MetricsServer ι
  | .bootstrap => ({ s with once := .finished } : MetricsServer ι).goto i .clock
  | .request now => s.goto i (.copyLock now)
  | .heartbeat => s.goto i .idle

/-- A statement of `metrics_snapshot_update`. -/
def updateStep (s : MetricsServer ι) (i : ι) (why : UpdateFor) :
    UpdateAt → MetricsReply → Option (MetricsServer ι)
  | .collect, .returned =>
    some (s.goto i (.update why (.build (ringLast s.ready s.ring metricsHistoryWindow))))
  | .build _, .built none => some (s.updated i why)
  | .build history, .built (some (texts, unwritten)) =>
    let json := buildSystemMetricsJson texts (history.map (·.getD unwritten))
    some (({ s with snapshot := s.snapshot.alloc json } : MetricsServer ι).goto i
      (.update why (.lock s.snapshot.next)))
  | .lock json, .returned =>
    if s.snapshot.lock = none then
      some (({ s with snapshot := s.snapshot.acquire i } : MetricsServer ι).goto i
        (.update why (.free json)))
    else none
  | .free json, .returned =>
    some (({ s with snapshot := s.snapshot.freeCell } : MetricsServer ι).goto i
      (.update why (.place json)))
  | .place json, .returned =>
    some (({ s with snapshot := s.snapshot.store (some json) } : MetricsServer ι).goto i
      (.update why .stamp))
  | .stamp, .returned =>
    some (({ s with updatedAt := s.now } : MetricsServer ι).goto i (.update why .unlock))
  | .unlock, .returned =>
    some (({ s with snapshot := s.snapshot.release } : MetricsServer ι).updated i why)
  | _, _ => none

/-- A statement of `metrics_ring_bootstrap`, or of `pthread_once` before it. -/
def metricsBootStep (s : MetricsServer ι) (i : ι) : MetricsCall → MetricsReply → Option (MetricsServer ι)
  | .once, .returned =>
    match s.once with
    | .untouched => some (({ s with once := .running } : MetricsServer ι).goto i .ringInit)
    | .running => none
    | .finished => some (s.goto i .clock)
  | .ringInit, .outcome ok =>
    let s := { s with ring := ringInit s.ring ok }
    if ok then some (s.goto i .register)
    else some (({ s with once := .finished } : MetricsServer ι).goto i .clock)
  | .register, .outcome ok =>
    if ok then some (({ s with registered := true } : MetricsServer ι).goto i .start)
    else some (s.goto i .ringFree)
  | .start, .outcome ok => some (s.goto i (if ok then .ready else .ringFree))
  | .ringFree, .returned =>
    some (({ s with ring := {}, once := .finished } : MetricsServer ι).goto i .clock)
  | .ready, .returned =>
    some (({ s with ready := true } : MetricsServer ι).goto i (.update .bootstrap .collect))
  | _, _ => none

/-- `get_system_metrics_json` behind `pthread_once`. -/
def requestStep (s : MetricsServer ι) (i : ι) : MetricsCall → MetricsReply → Option (MetricsServer ι)
  | .clock, .returned => some (s.goto i (.checkLock s.now))
  | .checkLock now, .returned =>
    if s.snapshot.lock = none then
      some (({ s with snapshot := s.snapshot.acquire i } : MetricsServer ι).goto i (.check now))
    else none
  | .check now, .returned =>
    let shouldRefresh := s.snapshot.cell = none || s.updatedAt = 0 || decide (now - s.updatedAt > 5)
    some (s.goto i (.checkUnlock now shouldRefresh))
  | .checkUnlock now shouldRefresh, .returned =>
    some (({ s with snapshot := s.snapshot.release } : MetricsServer ι).goto i
      (if shouldRefresh then .update (.request now) .collect else .copyLock now))
  | .copyLock now, .returned =>
    if s.snapshot.lock = none then
      some (({ s with snapshot := s.snapshot.acquire i } : MetricsServer ι).goto i (.read now))
    else none
  | .read now, .returned =>
    match s.snapshot.cell with
    | some json => some (s.goto i (.copy now json))
    | none => some (s.goto i (.fallback now true))
  | .copy now json, .outcome ok =>
    some (s.goto i (.copyUnlock now (if ok then some ((s.snapshot.heap json).getD []) else none)))
  | .copyUnlock now copy, .returned =>
    let s := { s with snapshot := s.snapshot.release }
    match copy with
    | some copy => some (s.answer i now (some copy))
    | none => some (s.goto i (.fallback now false))
  | .fallback now locked, .returned =>
    match s.snapshot.cell with
    | some json => some (s.goto i (.fallbackCopy now locked json))
    | none => some (s.goto i (.fallbackUnlock now locked none))
  | .fallbackCopy now locked json, .outcome ok =>
    some (s.goto i (.fallbackUnlock now locked
      (if ok then some ((s.snapshot.heap json).getD []) else none)))
  | .fallbackUnlock now _ copy, .returned =>
    some (({ s with snapshot := s.snapshot.release } : MetricsServer ι).answer i now copy)
  | _, _ => none

/-- A statement of `metrics_module_cleanup`. -/
def cleanStep (s : MetricsServer ι) (i : ι) : MetricsCall → MetricsReply → Option (MetricsServer ι)
  | .cleanLock, .returned =>
    if s.snapshot.lock = none then
      some (({ s with snapshot := s.snapshot.acquire i } : MetricsServer ι).goto i .cleanFree)
    else none
  | .cleanFree, .returned =>
    some (({ s with snapshot := s.snapshot.freeCell } : MetricsServer ι).goto i .cleanClear)
  | .cleanClear, .returned =>
    some (({ s with snapshot := s.snapshot.store none, updatedAt := 0 } : MetricsServer ι).goto i
      .cleanUnlock)
  | .cleanUnlock, .returned =>
    some (({ s with snapshot := s.snapshot.release } : MetricsServer ι).goto i .cleanRing)
  | .cleanRing, .returned =>
    some (({ s with ring := if s.ready then {} else s.ring } : MetricsServer ι).goto i .cleanReady)
  | .cleanReady, .returned => some (({ s with ready := false } : MetricsServer ι).goto i .idle)
  | _, _ => none

/-- One step. The scheduler calls the callback once it is registered. -/
def metricsStep (s : MetricsServer ι) : MetricsAct ι → Option (MetricsServer ι)
  | .tick seconds => some { s with now := s.now + seconds }
  | .call i f =>
    match s.calls i, f with
    | .idle, .getSystemMetricsJson => some (s.goto i .once)
    | .idle, .metricsHeartbeatCb => if s.registered then some (s.goto i .sample) else none
    | .idle, .metricsModuleCleanup => some (s.goto i .cleanLock)
    | _, _ => none
  | .step i reply =>
    match s.calls i, reply with
    | .update why at', _ => updateStep s i why at' reply
    | .sample, .sampled sample =>
      some (({ s with ring := ringPush Sampler.metrics.capacity s.ring sample } :
        MetricsServer ι).goto i (.update .heartbeat .collect))
    | call, _ =>
      metricsBootStep s i call reply <|> requestStep s i call reply <|> cleanStep s i call reply

end Miniweb.Modules.Metrics
