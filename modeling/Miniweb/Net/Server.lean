import Mathlib
import Miniweb.Core.Conf
import Miniweb.Net.WorkQueue
import Miniweb.Net.Worker

/-! `src/net/server.c` and the worker loop of `src/net/worker.c` as one system:
a dispatcher thread and any number of workers over the kernel's descriptor
table and event queue, the connection pool and the work queue. A step is one
system call, or one section under the pool's or the queue's lock, together with
what its thread computes up to the next one. -/
namespace Miniweb.Net

open Miniweb.Core

/-! ## The kernel -/

/-- What a descriptor number refers to. -/
inductive Obj where
  /-- A client socket; every accepted socket gets a new identity. -/
  | sock (id : Nat)
  /-- A file or pipe that a handler running in this worker opened. -/
  | file (worker : Nat)
  /-- A descriptor the server opened before its first connection. -/
  | system
  deriving DecidableEq, Repr

/-- An `EVFILT_READ` registration with `EV_DISPATCH`: delivering it disables it. -/
structure Knote where
  udata : Slot
  enabled : Bool
  deriving DecidableEq, Repr

/-- An event as `kevent` returns it. -/
inductive Event where
  | signal
  | listen
  | conn (fd : Nat) (udata : Slot) (eof : Bool)
  deriving DecidableEq, Repr

/-- The descriptor of a connection's event. -/
def Event.connFd : Event → Option Nat
  | .conn fd _ _ => some fd
  | _ => none

/-- `MINIWEB_MAX_EVENTS`. -/
abbrev maxEvents : Nat := 256

/-! ## The threads -/

/-- What a worker works on once a connection has passed its staleness check.
`inst` is the identity of the socket the slot stood for at the check; no code
reads it. -/
structure Held where
  slot : Slot
  fd : Fd
  inst : Nat
  deriving DecidableEq, Repr

/-- Where a worker stands, named by the call it makes next. -/
inductive Worker where
  /-- At the head of its loop, or waiting in `miniweb_work_queue_pop`. -/
  | idle
  /-- Holds a pointer off the queue, and reads `conn->fd` next. -/
  | popped (slot : Slot)
  /-- Has read `fd`; the staleness check is next. -/
  | loaded (slot : Slot) (fd : Int)
  | reading (h : Held)
  /-- Got `EAGAIN`; re-enables the event next. -/
  | releasing (h : Held)
  /-- Writes a 400 answer, then closes. -/
  | rejecting (h : Held)
  /-- In a handler, which has these descriptors of its own open. -/
  | handling (h : Held) (req : Request) (files : List Nat)
  /-- In `try_rearm_keepalive`, about to enable the event of `fd`. -/
  | rearming (h : Held) (fd : Int)
  /-- In `close_connection`, before its three calls. -/
  | deleting (h : Held)
  | closing (h : Held)
  | freeing (h : Held)
  | stopped
  deriving DecidableEq, Repr

/-- Where the dispatcher goes on after closing a descriptor. `sweep` lists the
descriptors `to_close[]` still holds, each with the identity of the connection
the scan saw. -/
inductive Resume where
  | events
  | accept
  | sweep (rest : List (Fd × Nat))
  deriving DecidableEq, Repr

/-- Where the dispatcher stands, with the events it has not handled yet. -/
inductive Dispatcher where
  | polling
  /-- `kevent` has returned; the sweep is decided next. -/
  | polled (events : List Event)
  | handling (events : List Event)
  | accepting (events : List Event)
  | accepted (fd id : Nat) (events : List Event)
  /-- About to register the connection just allocated. -/
  | adding (fd : Fd) (slot : Slot) (events : List Event)
  /-- About to write 503 to a connection that got no slot. -/
  | refusing (fd : Nat) (events : List Event)
  | refused (fd : Nat) (events : List Event)
  /-- The event passed the staleness check without `EV_EOF`. -/
  | pushing (fd : Fd) (slot : Slot) (events : List Event)
  | closing (fd : Fd) (inst : Nat) (resume : Resume) (events : List Event)
  | freeing (fd : Fd) (inst : Nat) (resume : Resume) (events : List Event)
  | stopped
  deriving DecidableEq, Repr

/-- The server. `inst` records which socket each slot was last allocated for;
no code reads it. -/
structure Server where
  pool : ConnectionPool
  queue : WorkQueue Slot
  running : Bool
  fds : Nat → Option Obj
  knotes : Nat → Option Knote
  nextId : Nat
  inst : Slot → Nat
  dispatcher : Dispatcher
  workers : Nat → Worker
  lastSweep : Time

/-- The server when its threads start: the first `system` descriptors are its
own. -/
def serverStart (system : Nat) (now : Time) : Server where
  pool := connectionPoolInit
  queue := workQueueInit
  running := true
  fds := fun fd => if fd < system then some .system else none
  knotes := fun _ => none
  nextId := 0
  inst := fun _ => 0
  dispatcher := .polling
  workers := fun _ => .idle
  lastSweep := now

/-- What can happen: each constructor is a step of the thread it names, with
what the kernel, the clock or a handler returns in it. -/
inductive ServerAct where
  /-- A signal handler clears `running`. -/
  | stop
  /-- The dispatcher. -/
  | poll (events : List Event)
  | leaveLoop
  | scan (checked now after : Time)
  | skipScan (checked : Time)
  | nextEvent
  | accept (fd : Nat)
  | acceptNone
  | alloc (addr : SockaddrIn) (now : Time)
  | addEvent (ok : Bool)
  | refuse
  | closeRefused
  | push
  | dispatcherClose
  | dispatcherFree
  /-- Worker `w`. -/
  | pop (w : Nat)
  | leave (w : Nat)
  | load (w : Nat)
  | check (w : Nat)
  | recv (w : Nat) (result : RecvResult) (now : Time)
  | enable (w : Nat) (ok : Bool)
  | write (w : Nat)
  | replied (w : Nat)
  | openFile (w : Nat) (fd : Nat)
  | closeFile (w : Nat) (fd : Nat)
  | handled (w : Nat) (outcome : HandlerOutcome) (now : Time)
  | delete (w : Nat)
  | close (w : Nat)
  | free (w : Nat)
  deriving DecidableEq, Repr

/-! ## Steps -/

namespace Server

/-- `close(fd)`: the number becomes free, and its registration goes with it. -/
def closeFd (s : Server) (fd : Nat) : Server :=
  { s with fds := Function.update s.fds fd none, knotes := Function.update s.knotes fd none }

def setWorker (s : Server) (w : Nat) (worker : Worker) : Server :=
  { s with workers := Function.update s.workers w worker }

/-- The worker's writes to the connection in its slot. -/
def setConn (s : Server) (slot : Slot) (conn : Connection) : Server :=
  { s with pool := { s.pool with pool := Function.update s.pool.pool slot conn } }

/-- The events are distinct enabled registrations. -/
def deliverable (s : Server) (events : List Event) : Bool :=
  decide (events.length ≤ maxEvents) && decide (events.filterMap Event.connFd).Nodup &&
    events.all fun
      | .conn fd udata _ => s.knotes fd = some ⟨udata, true⟩
      | _ => true

/-- Delivering disables. -/
def disableDelivered (s : Server) (events : List Event) : Nat → Option Knote := fun fd =>
  if fd ∈ events.filterMap Event.connFd then (s.knotes fd).map ({ · with enabled := false })
  else s.knotes fd

/-- The scan of `sweep_idle`: connections idle for longer than the timeout, each
with the socket it stands for. -/
def idle (s : Server) (connTimeout : Int) (now : Time) : List (Fd × Nat) :=
  (List.finRange maxConnections).filterMap fun fd =>
    match s.pool.connections fd with
    | none => none
    | some slot =>
      if now - (s.pool.pool slot).lastActivity > connTimeout then some (fd, s.inst slot) else none

/-- The dispatcher after a close and free. -/
def resumed (events : List Event) : Resume → Dispatcher
  | .events => .handling events
  | .accept => .accepting events
  | .sweep [] => .handling events
  | .sweep ((fd, inst) :: rest) => .closing fd inst (.sweep rest) events

/-- One event of the batch: stop on a signal, accept on the listening socket,
else check for staleness and close on `EV_EOF` or push. -/
def handleEvent (s : Server) : Event → List Event → Server
  | .signal, events => { s with running := false, dispatcher := .handling events }
  | .listen, events => { s with dispatcher := .accepting events }
  | .conn fd udata eof, events =>
    match fdIndex fd with
    | none => { s with dispatcher := .handling events }
    | some i =>
      if connectionIsStale s.pool i (some udata) then { s with dispatcher := .handling events }
      else if eof then { s with dispatcher := .closing i (s.inst udata) .events events }
      else { s with dispatcher := .pushing i udata events }

/-- The worker after `recv`: the connection is updated, and a complete header
parsed. -/
def afterRecv (s : Server) (w : Nat) (h : Held) : ReadRound → Server
  | .release => s.setWorker w (.releasing h)
  | .close => s.setWorker w (.deleting h)
  | .tooLarge conn => (s.setConn h.slot conn).setWorker w (.rejecting h)
  | .more conn => (s.setConn h.slot conn).setWorker w (.reading h)
  | .complete conn =>
    match requestOf conn with
    | none => (s.setConn h.slot conn).setWorker w (.rejecting h)
    | some req => (s.setConn h.slot conn).setWorker w (.handling h req [])

/-- The worker after the handler: re-arm or close. -/
def afterHandler (s : Server) (w : Nat) (h : Held) (req : Request) (outcome : HandlerOutcome)
    (now : Time) : Server :=
  if keepsConnection req outcome then
    match tryRearmKeepalive (s.pool.pool h.slot) now with
    | none => s.setWorker w (.deleting h)
    | some conn => (s.setConn h.slot conn).setWorker w (.rearming h conn.fd)
  else s.setWorker w (.deleting h)

/-- `kevent` with `EV_ENABLE` for `fd`; it succeeds only on a registration. -/
def enableFd (s : Server) (fd : Nat) (slot : Slot) : Option Server :=
  if s.knotes fd = none then none
  else some { s with knotes := Function.update s.knotes fd (some ⟨slot, true⟩) }

/-- The steps of the dispatcher. -/
def dispatcherStep (conf : Conf) (s : Server) : ServerAct → Option Server
  | .poll events =>
    match s.dispatcher with
    | .polling =>
      if s.running && s.deliverable events then
        some { s with knotes := s.disableDelivered events, dispatcher := .polled events }
      else none
    | _ => none
  | .leaveLoop =>
    match s.dispatcher with
    | .polling => some { s with running := false, dispatcher := .stopped }
    | _ => none
  | .scan checked now after =>
    match s.dispatcher with
    | .polled events =>
      if checked - s.lastSweep ≥ 1 then
        some { s with
          lastSweep := after
          dispatcher := resumed events (.sweep (s.idle conf.connTimeout now)) }
      else none
    | _ => none
  | .skipScan checked =>
    match s.dispatcher with
    | .polled events =>
      if checked - s.lastSweep ≥ 1 then none else some { s with dispatcher := .handling events }
    | _ => none
  | .nextEvent =>
    match s.dispatcher with
    | .handling [] => some { s with dispatcher := .polling }
    | .handling (event :: events) => some (s.handleEvent event events)
    | _ => none
  | .accept fd =>
    match s.dispatcher with
    | .accepting events =>
      if s.fds fd = none then
        some { s with
          fds := Function.update s.fds fd (some (.sock s.nextId))
          nextId := s.nextId + 1
          dispatcher := .accepted fd s.nextId events }
      else none
    | _ => none
  | .acceptNone =>
    match s.dispatcher with
    | .accepting events => some { s with dispatcher := .handling events }
    | _ => none
  | .alloc addr now =>
    match s.dispatcher with
    | .accepted fd id events =>
      let result := connectionAlloc s.pool fd (some addr) conf.maxConns now
      match fdIndex fd, result.1 with
      | some i, some slot =>
        some { s with
          pool := result.2
          inst := Function.update s.inst slot id
          dispatcher := .adding i slot events }
      | _, _ => some { s with pool := result.2, dispatcher := .refusing fd events }
    | _ => none
  | .addEvent ok =>
    match s.dispatcher with
    | .adding fd slot events =>
      if ok then
        if s.fds fd = none then none
        else
          some { s with
            knotes := Function.update s.knotes fd (some ⟨slot, true⟩)
            dispatcher := .accepting events }
      else some { s with dispatcher := .closing fd (s.inst slot) .accept events }
    | _ => none
  | .refuse =>
    match s.dispatcher with
    | .refusing fd events => some { s with dispatcher := .refused fd events }
    | _ => none
  | .closeRefused =>
    match s.dispatcher with
    | .refused fd events => some { s.closeFd fd with dispatcher := .accepting events }
    | _ => none
  | .push =>
    match s.dispatcher with
    | .pushing fd slot events =>
      let result := workQueuePush s.queue slot
      if result.1 < 0 then
        some { s with dispatcher := .closing fd (s.inst slot) .events events }
      else some { s with queue := result.2, dispatcher := .handling events }
    | _ => none
  | .dispatcherClose =>
    match s.dispatcher with
    | .closing fd inst resume events =>
      some { s.closeFd fd with dispatcher := .freeing fd inst resume events }
    | _ => none
  | .dispatcherFree =>
    match s.dispatcher with
    | .freeing fd _ resume events =>
      some { s with pool := connectionFree s.pool fd, dispatcher := resumed events resume }
    | _ => none
  | _ => none

/-- The steps of worker `w`. -/
def workerStep (conf : Conf) (s : Server) (w : Nat) : ServerAct → Option Server
  | .pop _ =>
    match s.workers w with
    | .idle =>
      match workQueuePop s.queue s.running with
      | (.wait, _) => some s
      | (.returned none, queue) => some ({ s with queue }.setWorker w .stopped)
      | (.returned (some slot), queue) => some ({ s with queue }.setWorker w (.popped slot))
    | _ => none
  | .leave _ =>
    match s.workers w with
    | .idle => if s.running then none else some (s.setWorker w .stopped)
    | _ => none
  | .load _ =>
    match s.workers w with
    | .popped slot => some (s.setWorker w (.loaded slot (s.pool.pool slot).fd))
    | _ => none
  | .check _ =>
    match s.workers w with
    | .loaded slot fd =>
      match fdIndex fd with
      | none => some (s.setWorker w .idle)
      | some i =>
        if connectionIsStale s.pool i (some slot) then some (s.setWorker w .idle)
        else some (s.setWorker w (.reading ⟨slot, i, s.inst slot⟩))
    | _ => none
  | .recv _ result now =>
    match s.workers w with
    | .reading h =>
      let conn := s.pool.pool h.slot
      let fits := match result with
        | .data bytes => decide (bytes.length ≤ recvLength conf.maxReqSize conn)
        | _ => true
      if fits then some (s.afterRecv w h (readRound conf.maxReqSize conn now result)) else none
    | _ => none
  | .enable _ ok =>
    match s.workers w with
    | .releasing h =>
      if ok then (s.enableFd h.fd h.slot).map (·.setWorker w .idle)
      else some (s.setWorker w .idle)
    | .rearming h fd =>
      if ok then (s.enableFd fd.toNat h.slot).map (·.setWorker w .idle)
      else some (s.setWorker w (.deleting h))
    | _ => none
  | .write _ =>
    match s.workers w with
    | .rejecting _ => some s
    | .handling _ _ _ => some s
    | _ => none
  | .replied _ =>
    match s.workers w with
    | .rejecting h => some (s.setWorker w (.deleting h))
    | _ => none
  | .openFile _ fd =>
    match s.workers w with
    | .handling h req files =>
      if s.fds fd = none then
        some ({ s with fds := Function.update s.fds fd (some (.file w)) }.setWorker w
          (.handling h req (fd :: files)))
      else none
    | _ => none
  | .closeFile _ fd =>
    match s.workers w with
    | .handling h req files =>
      if fd ∈ files then some ((s.closeFd fd).setWorker w (.handling h req (files.erase fd)))
      else none
    | _ => none
  | .handled _ outcome now =>
    match s.workers w with
    | .handling h req _ => some (s.afterHandler w h req outcome now)
    | _ => none
  | .delete _ =>
    match s.workers w with
    | .deleting h =>
      some ({ s with knotes := Function.update s.knotes h.fd none }.setWorker w (.closing h))
    | _ => none
  | .close _ =>
    match s.workers w with
    | .closing h => some ((s.closeFd h.fd).setWorker w (.freeing h))
    | _ => none
  | .free _ =>
    match s.workers w with
    | .freeing h =>
      some ({ s with pool := connectionFree s.pool h.fd }.setWorker w .idle)
    | _ => none
  | _ => none

end Server

/-- The worker a step belongs to; the others are the dispatcher's. -/
def ServerAct.worker : ServerAct → Option Nat
  | .pop w | .leave w | .load w | .check w | .recv w _ _ | .enable w _ | .write w | .replied w
  | .openFile w _ | .closeFile w _ | .handled w _ _ | .delete w | .close w | .free w => some w
  | _ => none

/-- One step of the server; `none` when it cannot be taken. -/
def serverStep (conf : Conf) (s : Server) (act : ServerAct) : Option Server :=
  match act, act.worker with
  | .stop, _ => some { s with running := false }
  | act, some w => s.workerStep conf w act
  | act, none => s.dispatcherStep conf act

/-- A new descriptor gets the lowest number that is not open, as `open` and `accept` promise; the
steps themselves take any free one. -/
def Server.takesLowest (s : Server) : ServerAct → Bool
  | .accept fd | .openFile _ fd => decide (∀ lower < fd, s.fds lower ≠ none)
  | _ => true

end Miniweb.Net
