import Miniweb.Lib.Published
import Miniweb.Lib.Transition
import Miniweb.Modules.NetworkingSample
import Miniweb.Modules.Sampling

/-! `networking_get_json` and `networking_heartbeat_cb` of
`src/modules/networking/networking_module.c`: the networking document that the requests share with
the heartbeat. Any number of threads are in either function; a step is one statement of one of
them. The lock of the ring guards the ring and `cached_json`. -/
namespace Miniweb.Modules.Networking

open Miniweb.Lib.CString Miniweb.Lib.Published

/-- A block of `NETWORK_JSON_BUFFER_SIZE` from `malloc`, and what `timestamp` holds then. -/
structure JsonBlock where
  block : Bytes
  timestamp : Bytes
  allocated : block.length = networkJsonBufferSize
  short : timestamp.length < 64

/-- The string that `networking_build_json` returns. -/
def buildJson (sample : NetworkingSample) (block : JsonBlock) : Option Bytes :=
  (networkingBuildJson block.block block.timestamp sample).map cstr

/-- The next statement of a thread. -/
inductive NetworkingCall where
  | idle
  /-- `pthread_once`, and `networking_ring_bootstrap` under it. -/
  | once
  | ringInit
  | register
  | start
  /-- `free(g_networking_ring.buf)`, and the pointer is set to NULL. -/
  | ringFree
  /-- `if (g_networking_ring.buf != NULL)`. -/
  | readBuf
  | lock
  /-- `if (g_networking_ring.cached_json != NULL)`. -/
  | read
  | copy (json : Nat)
  | unlock (copy : Option Bytes)
  /-- `networking_ring_last`. -/
  | last
  | lastLock
  | lastCopy
  | lastUnlock (sample : Option NetworkingSample)
  | collect
  | build (sample : NetworkingSample)
  /-- `if (json != NULL && g_networking_ring.buf != NULL)`. -/
  | test (json : Option Bytes)
  | storeLock (json : Bytes)
  | storeFree (json : Bytes)
  /-- The `strdup` of the document. -/
  | storeCopy (json : Bytes)
  | storePlace (json : Bytes) (copy : Option Nat)
  | storeUnlock (json : Bytes)
  /-- `networking_heartbeat_cb`, with `networking_ring_push` in it. -/
  | hbCollect
  | hbBuild (sample : NetworkingSample)
  | pushLock (sample : NetworkingSample) (json : Option Nat)
  | push (sample : NetworkingSample) (json : Option Nat)
  | pushUnlock (json : Option Nat)
  | hbTest (json : Option Nat)
  | hbLock (json : Nat)
  | hbFree (json : Nat)
  | hbPlace (json : Nat)
  | hbUnlock

/-- `g_networking_once`. -/
inductive NetworkingOnce where
  | untouched
  | running
  | finished
  deriving DecidableEq

/-- The globals of the module, and its threads. -/
structure NetworkingServer (ι : Type) where
  ring : SampleRing NetworkingSample := {}
  once : NetworkingOnce := .untouched
  /-- The task is in the scheduler's table. -/
  registered : Bool := false
  /-- `cached_json` and the lock. -/
  cached : Shared ι Bytes := {}
  calls : ι → NetworkingCall := fun _ => .idle
  /-- What the requests were given. -/
  answers : List (Option Bytes) := []

/-- What a statement is answered. -/
inductive NetworkingReply where
  | returned
  /-- `malloc`, `strdup`, `heartbeat_register` or `heartbeat_start` has succeeded, or not. -/
  | outcome (ok : Bool)
  | collected (view : NetworkView)
  /-- What the ring gives; memory that was never written reads as this. -/
  | copied (unwritten : NetworkingSample)
  | built (block : Option JsonBlock)

inductive NetworkingAct (ι : Type) where
  | networkingGetJson (i : ι)
  | networkingHeartbeatCb (i : ι)
  | step (i : ι) (reply : NetworkingReply)

variable {ι : Type} [DecidableEq ι]

/-- A thread goes on to its next statement. -/
def NetworkingServer.goto (s : NetworkingServer ι) (i : ι) (call : NetworkingCall) :
    NetworkingServer ι :=
  { s with calls := Function.update s.calls i call }

@[simp] theorem NetworkingServer.calls_goto (s : NetworkingServer ι) (i : ι)
    (call : NetworkingCall) : (s.goto i call).calls = Function.update s.calls i call := rfl

/-- A request has its answer. -/
def NetworkingServer.answer (s : NetworkingServer ι) (i : ι) (json : Option Bytes) :
    NetworkingServer ι :=
  ({ s with answers := s.answers ++ [json] } : NetworkingServer ι).goto i .idle

/-- The lock is taken, if nobody has it. -/
def NetworkingServer.locking (s : NetworkingServer ι) (i : ι) (call : NetworkingCall) :
    Option (NetworkingServer ι) :=
  if s.cached.lock = none then
    some (({ s with cached := s.cached.acquire i } : NetworkingServer ι).goto i call)
  else none

/-- The lock is given back. -/
def NetworkingServer.unlocked (s : NetworkingServer ι) : NetworkingServer ι :=
  { s with cached := s.cached.release }

/-- A statement of `networking_ring_bootstrap`, or of `pthread_once` before it. -/
def bootStep (s : NetworkingServer ι) (i : ι) :
    NetworkingCall → NetworkingReply → Option (NetworkingServer ι)
  | .once, .returned =>
    match s.once with
    | .untouched => some (({ s with once := .running } : NetworkingServer ι).goto i .ringInit)
    | .running => none
    | .finished => some (s.goto i .readBuf)
  | .ringInit, .outcome ok =>
    let s := { s with ring := ringInit s.ring ok }
    if ok then some (s.goto i .register)
    else some (({ s with once := .finished } : NetworkingServer ι).goto i .readBuf)
  | .register, .outcome ok =>
    if ok then some (({ s with registered := true } : NetworkingServer ι).goto i .start)
    else some (s.goto i .ringFree)
  | .start, .outcome ok =>
    if ok then some (({ s with once := .finished } : NetworkingServer ι).goto i .readBuf)
    else some (s.goto i .ringFree)
  | .ringFree, .returned =>
    some (({ s with ring := { s.ring with buf := .null }, once := .finished } :
      NetworkingServer ι).goto i .readBuf)
  | _, _ => none

/-- `networking_get_json` behind `pthread_once`, up to the sample. -/
def requestStep (s : NetworkingServer ι) (i : ι) :
    NetworkingCall → NetworkingReply → Option (NetworkingServer ι)
  | .readBuf, .returned =>
    match s.ring.buf with
    | .null => some (s.goto i .last)
    | _ => some (s.goto i .lock)
  | .lock, .returned => s.locking i .read
  | .read, .returned =>
    match s.cached.cell with
    | some json => some (s.goto i (.copy json))
    | none => some (s.goto i (.unlock none))
  | .copy json, .outcome ok =>
    some (s.goto i (.unlock (if ok then some ((s.cached.heap json).getD []) else none)))
  | .unlock (some copy), .returned => some (s.unlocked.answer i (some copy))
  | .unlock none, .returned => some (s.unlocked.goto i .last)
  | .last, .returned =>
    match s.ring.buf with
    | .null => some (s.goto i .collect)
    | _ => some (s.goto i .lastLock)
  | .lastLock, .returned => s.locking i .lastCopy
  | .lastCopy, .copied unwritten =>
    some (s.goto i (.lastUnlock ((networkingRingLast s.ring).map (·.getD unwritten))))
  | .lastUnlock (some sample), .returned => some (s.unlocked.goto i (.build sample))
  | .lastUnlock none, .returned => some (s.unlocked.goto i .collect)
  | .collect, .collected view => some (s.goto i (.build (networkingCollectSample view)))
  | _, _ => none

/-- The rest of `networking_get_json`. -/
def storeStep (s : NetworkingServer ι) (i : ι) :
    NetworkingCall → NetworkingReply → Option (NetworkingServer ι)
  | .build sample, .built block => some (s.goto i (.test (block.bind (buildJson sample))))
  | .test none, .returned => some (s.answer i none)
  | .test (some json), .returned =>
    match s.ring.buf with
    | .null => some (s.answer i (some json))
    | _ => some (s.goto i (.storeLock json))
  | .storeLock json, .returned => s.locking i (.storeFree json)
  | .storeFree json, .returned =>
    some (({ s with cached := s.cached.freeCell } : NetworkingServer ι).goto i (.storeCopy json))
  | .storeCopy json, .outcome true =>
    some (({ s with cached := s.cached.alloc json } : NetworkingServer ι).goto i
      (.storePlace json (some s.cached.next)))
  | .storeCopy json, .outcome false => some (s.goto i (.storePlace json none))
  | .storePlace json copy, .returned =>
    some (({ s with cached := s.cached.store copy } : NetworkingServer ι).goto i
      (.storeUnlock json))
  | .storeUnlock json, .returned => some (s.unlocked.answer i (some json))
  | _, _ => none

/-- A statement of `networking_heartbeat_cb`. Where the bootstrap has failed behind its
registration, the push writes through NULL, and the model stops. -/
def heartbeatStep (s : NetworkingServer ι) (i : ι) :
    NetworkingCall → NetworkingReply → Option (NetworkingServer ι)
  | .hbCollect, .collected view => some (s.goto i (.hbBuild (networkingCollectSample view)))
  | .hbBuild sample, .built block =>
    match block.bind (buildJson sample) with
    | some json =>
      some (({ s with cached := s.cached.alloc json } : NetworkingServer ι).goto i
        (.pushLock sample (some s.cached.next)))
    | none => some (s.goto i (.pushLock sample none))
  | .pushLock sample json, .returned => s.locking i (.push sample json)
  | .push sample json, .returned =>
    match s.ring.buf with
    | .null => none
    | _ =>
      some (({ s with ring := ringPush Sampler.networking.capacity s.ring sample } :
        NetworkingServer ι).goto i (.pushUnlock json))
  | .pushUnlock json, .returned => some (s.unlocked.goto i (.hbTest json))
  | .hbTest none, .returned => some (s.goto i .idle)
  | .hbTest (some json), .returned => some (s.goto i (.hbLock json))
  | .hbLock json, .returned => s.locking i (.hbFree json)
  | .hbFree json, .returned =>
    some (({ s with cached := s.cached.freeCell } : NetworkingServer ι).goto i (.hbPlace json))
  | .hbPlace json, .returned =>
    some (({ s with cached := s.cached.store (some json) } : NetworkingServer ι).goto i .hbUnlock)
  | .hbUnlock, .returned => some (s.unlocked.goto i .idle)
  | _, _ => none

/-- One step. The scheduler calls the callback once it is registered. -/
def networkingStep (s : NetworkingServer ι) : NetworkingAct ι → Option (NetworkingServer ι)
  | .networkingGetJson i =>
    match s.calls i with
    | .idle => some (s.goto i .once)
    | _ => none
  | .networkingHeartbeatCb i =>
    match s.calls i with
    | .idle => if s.registered then some (s.goto i .hbCollect) else none
    | _ => none
  | .step i reply =>
    bootStep s i (s.calls i) reply <|> requestStep s i (s.calls i) reply <|>
      storeStep s i (s.calls i) reply <|> heartbeatStep s i (s.calls i) reply

end Miniweb.Modules.Networking
