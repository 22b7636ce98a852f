import Miniweb.Lib.Transition
import Miniweb.Net.Server

/-! What a run of the server does on each socket: the bytes `recv` returned and
the requests handed to handlers, in order. The record is kept beside the state;
no step of the server reads it. -/
namespace Miniweb.Net

open Miniweb.Core Miniweb.Lib

/-- The bytes and the requests of each socket so far. -/
structure ServerLog where
  received : Nat → CString.Bytes
  dispatched : Nat → List Request

/-- Nothing has happened. -/
def ServerLog.empty : ServerLog where
  received := fun _ => []
  dispatched := fun _ => []

/-- The bytes a `recv` returned. -/
def RecvResult.bytes : RecvResult → CString.Bytes
  | .data bytes => bytes
  | .again | .error => []

/-- The request a round of the read loop completes. -/
def ReadRound.request : ReadRound → Option Request
  | .complete conn => requestOf conn
  | .release | .close | .tooLarge _ | .more _ => none

/-- The record after a step: only a `recv` adds to it, for the socket its worker
checked. -/
def Server.record (conf : Conf) (s : Server) (act : ServerAct) (log : ServerLog) : ServerLog :=
  match act with
  | .recv w result now =>
    match s.workers w with
    | .reading h =>
      let round := readRound conf.maxReqSize (s.pool.pool h.slot) now result
      { received := Function.update log.received h.inst (log.received h.inst ++ result.bytes)
        dispatched :=
          Function.update log.dispatched h.inst (log.dispatched h.inst ++ round.request.toList) }
    | _ => log
  | _ => log

/-- A step of the server with its record. -/
def loggedStep (conf : Conf) : Server × ServerLog → ServerAct → Option (Server × ServerLog) :=
  Transition.recorded (serverStep conf) (Server.record conf)

end Miniweb.Net
