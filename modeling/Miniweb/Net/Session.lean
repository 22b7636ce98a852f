import Miniweb.Net.Worker

/-! One connection from its acceptance to its close, served by one worker at a
time: the bytes its client sends, what `recv` may return of them, and the state
`miniweb_worker_thread` keeps in the connection between two readiness events. -/
namespace Miniweb.Net

open Miniweb.Lib.CString

/-- The socket as `recv` sees it: bytes sent and not yet received, and whether
the client has closed its side behind them. -/
structure Wire where
  unread : Bytes
  ended : Bool
  deriving DecidableEq, Repr

/-- What a non-blocking `recv` of `length` bytes may return: a non-empty piece
from the front of the unread bytes, nothing when the stream is over or nothing
was asked for, `EAGAIN` whenever bytes are still in flight, or an error. -/
def recvMayReturn (length : Nat) (wire : Wire) : RecvResult → Bool
  | .data bytes =>
    if bytes = [] then length = 0 || (wire.unread = [] && wire.ended)
    else bytes.length ≤ length && bytes.isPrefixOf wire.unread
  | .again => true
  | .error => true

/-- Where the connection stands. -/
inductive Stage where
  /-- Waiting for its event, or queued. -/
  | armed (conn : Connection)
  /-- In a worker that is about to call `recv`. -/
  | reading (conn : Connection)
  | closed
  deriving DecidableEq, Repr

/-- One connection, its wire, and the requests dispatched on it so far. -/
structure Session where
  stage : Stage
  wire : Wire
  dispatched : List Request
  deriving DecidableEq, Repr

/-- What can happen to a connection. A `receive` carries what `recv` returned,
the clock, and, for a request that completes with it, what its handler leaves
and whether `kevent` re-armed the connection. -/
inductive SessionAct where
  | send (bytes : Bytes)
  | finish
  | pop
  | receive (result : RecvResult) (now : Time) (handler : HandlerOutcome) (rearmed : Bool)
  deriving DecidableEq, Repr

/-- The wire after `recv` returned `result`. -/
def Wire.take (wire : Wire) : RecvResult → Wire
  | .data bytes => { wire with unread := wire.unread.drop bytes.length }
  | .again => wire
  | .error => wire

/-- The end of a request whose header is complete: dispatch, then keep the
connection or close it. -/
def serveRequest (s : Session) (conn : Connection) (now : Time) (handler : HandlerOutcome)
    (rearmed : Bool) : Session :=
  match requestOf conn with
  | none => { s with stage := .closed }
  | some req =>
    let s := { s with dispatched := s.dispatched ++ [req] }
    if keepsConnection req handler then
      match tryRearmKeepalive conn now with
      | none => { s with stage := .closed }
      | some conn => { s with stage := if rearmed then .armed conn else .closed }
    else { s with stage := .closed }

/-- One step of the connection; `none` when it cannot happen now. -/
def sessionStep (maxReqSize : Int) (s : Session) : SessionAct → Option Session
  | .send bytes =>
    if s.wire.ended then none
    else some { s with wire := { s.wire with unread := s.wire.unread ++ bytes } }
  | .finish => some { s with wire := { s.wire with ended := true } }
  | .pop =>
    match s.stage with
    | .armed conn => some { s with stage := .reading conn }
    | _ => none
  | .receive result now handler rearmed =>
    match s.stage with
    | .reading conn =>
      if recvMayReturn (recvLength maxReqSize conn) s.wire result then
        let s := { s with wire := s.wire.take result }
        match readRound maxReqSize conn now result with
        | .release => some { s with stage := .armed conn }
        | .close => some { s with stage := .closed }
        | .tooLarge _ => some { s with stage := .closed }
        | .more conn => some { s with stage := .reading conn }
        | .complete conn => some (serveRequest s conn now handler rearmed)
      else none
    | _ => none

/-- A connection as `miniweb_connection_alloc` leaves it, over the given wire. -/
def Session.accepted (fd : Fd) (addr : SockaddrIn) (gen : UInt32) (now : Time) (wire : Wire) :
    Session where
  stage := .armed { fd, addr, gen, created := now, lastActivity := now }
  wire
  dispatched := []

/-! ## The responses -/

/-- The response to a request that was dispatched. -/
structure Reply where
  request : Request
  /-- `req->keep_alive` when the response is sent. -/
  keepAlive : Bool
  /-- `try_rearm_keepalive` refused the connection behind it: the server closes on account of
  `MAX_KEEPALIVE_REQUESTS`. -/
  atLimit : Bool
  deriving DecidableEq, Repr

/-- The response to the request in a complete buffer. -/
def replyTo (conn : Connection) (now : Time) (handler : HandlerOutcome) : Option Reply :=
  (requestOf conn).map fun request =>
    { request
      keepAlive := request.keepAlive && !handler.clearsKeepAlive
      atLimit := keepsConnection request handler && (tryRearmKeepalive conn now).isNone }

/-- A connection with the responses sent on it so far. -/
structure ReplySession where
  session : Session
  replies : List Reply := []
  deriving DecidableEq, Repr

/-- The responses sent by one step of a connection that is at `stage`. -/
def repliesOf (maxReqSize : Int) (stage : Stage) : SessionAct → List Reply
  | .receive result now handler _ =>
    match stage with
    | .reading conn =>
      match readRound maxReqSize conn now result with
      | .complete conn => (replyTo conn now handler).toList
      | _ => []
    | _ => []
  | _ => []

/-- One step, with what it sends. -/
def replyStep (maxReqSize : Int) (s : ReplySession) (act : SessionAct) : Option ReplySession :=
  (sessionStep maxReqSize s.session act).map fun session =>
    { session, replies := s.replies ++ repliesOf maxReqSize s.session.stage act }

end Miniweb.Net
