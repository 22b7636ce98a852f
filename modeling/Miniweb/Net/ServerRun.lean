import Miniweb.Net.WorkQueue

/-! The threads of `miniweb_server_run` and what they wait for: the main thread
creates the workers, runs the dispatcher loop, and on the way out clears
`running`, wakes everybody and joins; the workers wait in
`miniweb_work_queue_pop` on `not_empty`. A step is one section under the queue's
lock, one read or write of `running`, or one call on a thread. What the
dispatcher does for a connection and what a worker does with it is
`Miniweb.Net.Server`; here an item is handled in one step. -/
namespace Miniweb.Net

/-- Where a worker stands. -/
inductive WorkerThread (α : Type) where
  /-- Not created. -/
  | absent
  /-- At the head of its loop, about to read `running`. -/
  | testing
  /-- In `miniweb_work_queue_pop`, about to take the lock. -/
  | entering
  /-- In `pthread_cond_wait`. -/
  | waiting
  /-- Woken up, about to take the lock again. -/
  | woken
  /-- Past the lock, with an item. -/
  | working (item : α)
  | exited
  deriving DecidableEq, Repr

/-- The worker is in `pthread_cond_wait`. -/
def WorkerThread.waits {α : Type} : WorkerThread α → Bool
  | .waiting => true
  | .absent | .testing | .entering | .woken | .working _ | .exited => false

/-- `pthread_join` returns. -/
def WorkerThread.ended {α : Type} : WorkerThread α → Bool
  | .exited => true
  | .absent | .testing | .entering | .waiting | .woken | .working _ => false

/-- Where the main thread stands. `again` says that the call that stops the
workers after a failed `pthread_create` is still to be followed by the one behind
`out`. -/
inductive MainThread where
  /-- Opening the pipe, the socket and the queue of events. -/
  | opening
  /-- In the loop around `pthread_create`. -/
  | creating
  /-- About to read `running`. -/
  | looping
  /-- In the body of the dispatcher loop. -/
  | dispatching
  /-- About to clear `running`. -/
  | stopping (again : Bool)
  /-- In `miniweb_work_queue_broadcast_shutdown`. -/
  | broadcasting (again : Bool)
  /-- About to join worker `i`. -/
  | joining (i : Nat)
  | returned
  deriving DecidableEq, Repr

/-- `miniweb_server_run` in the middle of its work. -/
structure ServerRun (α : Type) where
  queue : WorkQueue α
  running : Bool
  main : MainThread
  /-- `started_threads`. -/
  started : Nat
  workers : Nat → WorkerThread α

variable {α : Type}

/-- The run behind the initialisation of queue and pool. -/
def serverRunStart : ServerRun α where
  queue := workQueueInit
  running := true
  main := .opening
  started := 0
  workers := fun _ => .absent

/-- What can happen. A push carries the workers that `pthread_cond_signal`
wakes: at least one, if one waits. -/
inductive RunAct (α : Type) where
  /-- A signal handler calls `miniweb_server_stop`. -/
  | signal
  | opened (ok : Bool)
  | create (ok : Bool)
  | created
  | readRunning
  | pollFails
  | push (item : α) (wakes : List Nat)
  /-- The byte in the signal pipe is seen. -/
  | pipeEvent
  | endBatch
  | stop
  | broadcast
  | join
  | close
  /-- Worker `w`. -/
  | test (w : Nat)
  | lock (w : Nat)
  | finish (w : Nat)
  /-- `pthread_cond_wait` returns for no reason. -/
  | spurious (w : Nat)
  deriving DecidableEq, Repr

namespace ServerRun

def setWorker (s : ServerRun α) (w : Nat) (worker : WorkerThread α) : ServerRun α :=
  { s with workers := Function.update s.workers w worker }

/-- The workers that wait. -/
def waiting (s : ServerRun α) : List Nat :=
  (List.range s.started).filter fun w => (s.workers w).waits

/-- `pthread_cond_signal` may wake these. -/
def signalsMay (s : ServerRun α) (wakes : List Nat) : Bool :=
  wakes.all (fun w => (s.workers w).waits) && (wakes ≠ [] || s.waiting = [])

/-- The named workers are woken up. -/
def wake (s : ServerRun α) (wakes : List Nat) : ServerRun α :=
  { s with workers := fun w => if w ∈ wakes then .woken else s.workers w }

/-- A section of `miniweb_work_queue_pop` under the lock, for a worker that is at
its beginning. -/
def lockStep (s : ServerRun α) (w : Nat) : ServerRun α :=
  match workQueuePop s.queue s.running with
  | (.wait, _) => s.setWorker w .waiting
  | (.returned none, queue) => { s with queue }.setWorker w .exited
  | (.returned (some item), queue) => { s with queue }.setWorker w (.working item)

/-- The steps of the main thread. -/
def mainStep (threads : Nat) (s : ServerRun α) : RunAct α → Option (ServerRun α)
  | .opened ok =>
    match s.main with
    | .opening => some { s with main := if ok then .creating else .stopping false }
    | _ => none
  | .create ok =>
    match s.main with
    | .creating =>
      if s.started < threads then
        if ok then some { s.setWorker s.started .testing with started := s.started + 1 }
        else some { s with main := .stopping true }
      else none
    | _ => none
  | .created =>
    match s.main with
    | .creating => if s.started < threads then none else some { s with main := .looping }
    | _ => none
  | .readRunning =>
    match s.main with
    | .looping => some { s with main := if s.running then .dispatching else .stopping false }
    | _ => none
  | .pollFails =>
    match s.main with
    | .dispatching => some { s with main := .stopping false }
    | _ => none
  | .push item wakes =>
    match s.main with
    | .dispatching =>
      let result := workQueuePush s.queue item
      if result.1 < 0 then some s
      else if s.signalsMay wakes then some { s.wake wakes with queue := result.2 }
      else none
    | _ => none
  | .pipeEvent =>
    match s.main with
    | .dispatching => some { s with running := false }
    | _ => none
  | .endBatch =>
    match s.main with
    | .dispatching => some { s with main := .looping }
    | _ => none
  | .stop =>
    match s.main with
    | .stopping again => some { s with running := false, main := .broadcasting again }
    | _ => none
  | .broadcast =>
    match s.main with
    | .broadcasting again =>
      some { s.wake s.waiting with main := if again then .stopping false else .joining 0 }
    | _ => none
  | .join =>
    match s.main with
    | .joining i =>
      if i < s.started ∧ (s.workers i).ended then some { s with main := .joining (i + 1) } else none
    | _ => none
  | .close =>
    match s.main with
    | .joining i => if i < s.started then none else some { s with main := .returned }
    | _ => none
  | _ => none

/-- The steps of worker `w`. -/
def workerStep (s : ServerRun α) (w : Nat) : RunAct α → Option (ServerRun α)
  | .test _ =>
    match s.workers w with
    | .testing => some (s.setWorker w (if s.running then .entering else .exited))
    | _ => none
  | .lock _ =>
    match s.workers w with
    | .entering => some (s.lockStep w)
    | .woken => some (s.lockStep w)
    | _ => none
  | .finish _ =>
    match s.workers w with
    | .working _ => some (s.setWorker w .testing)
    | _ => none
  | .spurious _ =>
    match s.workers w with
    | .waiting => some (s.setWorker w .woken)
    | _ => none
  | _ => none

end ServerRun

/-- The worker a step belongs to; the others are the main thread's. -/
def RunAct.worker : RunAct α → Option Nat
  | .test w | .lock w | .finish w | .spurious w => some w
  | _ => none

/-- One step of a run with `config->threads` workers. -/
def runStep (threads : Nat) (s : ServerRun α) (act : RunAct α) : Option (ServerRun α) :=
  match act, act.worker with
  | .signal, _ => some { s with running := false }
  | act, some w => s.workerStep w act
  | act, none => s.mainStep threads act

end Miniweb.Net
