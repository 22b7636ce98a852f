import Miniweb.Http.Response
import Miniweb.Http.ResponseIo
import Miniweb.Lib.HeaderSection
import Miniweb.Lib.MessageStream

/-! The responses of one connection on the wire. Each goes out by the loop that
`http_response_send` runs over its header and body, one answer of the kernel a
step; the worker that serves the connection closes it behind a response that
failed, or that said so. -/
namespace Miniweb.Http

open Miniweb.Lib Miniweb.Lib.CString Miniweb.Lib.Message

/-- The loop a response is written by. -/
inductive Sending where
  /-- `http_response_write_all` on the header. -/
  | header (loop : WriteLoop Bytes)
  /-- `http_response_writev_all` on both. -/
  | both (loop : WriteLoop (List Segment))

/-- An element of `iov`; an empty one is passed over. -/
def iovElement (bytes : Bytes) : List Segment :=
  if nonempty : bytes ≠ [] then [⟨bytes, nonempty⟩] else []

/-- The loop in front of its first call. -/
def Sending.start (header body : Bytes) : Sending :=
  if body.length > 0 then .both (httpResponseWritevAll (iovElement header ++ iovElement body))
  else .header (httpResponseWriteAll header)

/-- One answer of the kernel. -/
def Sending.step (sending : Sending) (reply : IoReply) : Option Sending :=
  match sending with
  | .header loop => (writeStep bufferPending loop reply).map .header
  | .both loop => (writeStep segmentsPending loop reply).map .both

/-- The bytes the descriptor has taken. -/
def Sending.delivered : Sending → Bytes
  | .header loop => loop.delivered
  | .both loop => loop.delivered

/-- What a loop has returned, if it has. -/
def WriteCall.result : WriteCall → Option Int
  | .returned rc => some rc
  | .write | .poll => none

/-- What the loop of a response has returned. -/
def Sending.returned : Sending → Option Int
  | .header loop => loop.call.result
  | .both loop => loop.call.result

/-- A response with the `keep_alive` it is sent under. -/
structure Answer where
  keepAlive : Bool
  response : HttpResponse

/-- One connection: the bytes of the sends that are over, the responses whose send
returned 0, the one being sent, and whether the worker may serve another request. -/
structure ResponseStream where
  wire : Bytes := []
  answered : List Answer := []
  sending : Option (Answer × Sending) := none
  serving : Bool := true

/-- What happens: a handler sends a response, the kernel answers, or the worker
closes the connection between two requests. -/
inductive StreamAct where
  | respond (answer : Answer)
  | reply (reply : IoReply)
  | close

/-- All bytes the client can have been sent. -/
def ResponseStream.bytes (s : ResponseStream) : Bytes :=
  match s.sending with
  | none => s.wire
  | some (_, sending) => s.wire ++ sending.delivered

/-- One step of the connection. -/
def streamStep (s : ResponseStream) : StreamAct → Option ResponseStream
  | .respond answer =>
    if s.serving ∧ s.sending.isNone then
      match responseHeader answer.keepAlive answer.response with
      | none => some { s with serving := false }
      | some header => some { s with sending := some (answer, .start header answer.response.body.sent) }
    else none
  | .reply reply =>
    match s.sending with
    | none => none
    | some (answer, sending) =>
      match sending.step reply with
      | none => none
      | some sending =>
        match sending.returned with
        | none => some { s with sending := some (answer, sending) }
        | some rc =>
          if rc < 0 then
            some { s with
              wire := s.wire ++ sending.delivered
              sending := none
              serving := false }
          else
            some
              { wire := s.wire ++ sending.delivered
                answered := s.answered ++ [answer]
                sending := none
                serving := answer.keepAlive }
  | .close => if s.sending.isNone then some { s with serving := false } else none

/-- The length a client takes a body to have: the value of the first field named
`Content-Length`. -/
def contentLength (fields : List Bytes) : Option Nat :=
  (fields.findSome? (HeaderSection.valueNamed (lit "Content-Length"))).map fun value =>
    decimal (value.dropWhile isblank)

end Miniweb.Http
