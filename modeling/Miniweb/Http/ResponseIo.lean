import Miniweb.Lib.CString
import Miniweb.Lib.Transition

/-! `src/http/response_io.c`: writing a response to its descriptor. Each step is one answer
of the kernel, to `write`, `writev` or `poll`. -/
namespace Miniweb.Http

open Miniweb.Lib Miniweb.Lib.CString

/-- `WRITE_RETRY_LIMIT`. -/
abbrev writeRetryLimit : Nat := 5

/-- What a loop still has to write: the bytes offered to the kernel, the condition that
ends the loop, and what the loop does after `w` of them were taken. -/
structure Pending (π : Type) where
  bytes : π → Bytes
  finished : π → Bool
  advance : Nat → π → π
  finished_iff : ∀ p, finished p = true ↔ bytes p = []
  bytes_advance : ∀ w p, w ≤ (bytes p).length → bytes (advance w p) = (bytes p).drop w

/-- `p` and `remaining` of `http_response_write_all`. -/
def bufferPending : Pending Bytes where
  bytes := id
  finished buf := buf.length == 0
  advance w buf := buf.drop w
  finished_iff buf := by simp
  bytes_advance _ _ _ := rfl

/-- An element of `iov` that is not empty. -/
structure Segment where
  bytes : Bytes
  nonempty : bytes ≠ []

/-- The loop of `http_response_writev_all` over `iov[idx..]` with `left` bytes to pass. -/
def passSegments : Nat → List Segment → List Segment
  | _, [] => []
  | left, seg :: rest =>
    if inside : left < seg.bytes.length then
      { bytes := seg.bytes.drop left
        nonempty := by simpa using inside } :: rest
    else passSegments (left - seg.bytes.length) rest

/-- The concatenation of the segments. -/
def segmentBytes (segments : List Segment) : Bytes := segments.flatMap (·.bytes)

theorem segmentBytes_eq_nil_iff {segments : List Segment} :
    segmentBytes segments = [] ↔ segments = [] := by
  cases segments with
  | nil => simp [segmentBytes]
  | cons seg rest => simp [segmentBytes, seg.nonempty]

/-- What is passed is taken off the front. -/
theorem segmentBytes_passSegments (left : Nat) (segments : List Segment) :
    segmentBytes (passSegments left segments) = (segmentBytes segments).drop left := by
  induction segments generalizing left with
  | nil => simp [segmentBytes, passSegments]
  | cons seg rest ih =>
    rw [passSegments]
    split
    · rename_i inside
      simp [segmentBytes, List.drop_append_of_le_length inside.le]
    · rename_i outside
      have passed : seg.bytes.drop left = [] := List.drop_eq_nil_of_le (by omega)
      rw [ih]
      simp only [segmentBytes, List.flatMap_cons, List.drop_append, passed, List.nil_append]

/-- `iov` from `idx` on. -/
def segmentsPending : Pending (List Segment) where
  bytes := segmentBytes
  finished segments := segments.isEmpty
  advance := passSegments
  finished_iff segments := by rw [segmentBytes_eq_nil_iff, List.isEmpty_iff]
  bytes_advance w segments _ := segmentBytes_passSegments w segments

/-- Where a loop stands: at `write` or `writev`, in `http_response_wait_fd_writable`, or
behind its return. -/
inductive WriteCall where
  | write
  | poll
  | returned (rc : Int)
  deriving DecidableEq, Repr

/-- What the kernel answers. -/
inductive IoReply where
  /-- `w` bytes are taken. -/
  | took (w : Nat)
  /-- The call returns 0. -/
  | zero
  /-- It fails with `EINTR`, with `EAGAIN` or `EWOULDBLOCK`, or with another error. -/
  | interrupted
  | wouldBlock
  | error
  /-- `poll` returns with `POLLOUT`. -/
  | writable
  /-- `poll` returns with `POLLERR`, `POLLHUP` or `POLLNVAL` and without `POLLOUT`. -/
  | hangup
  /-- `poll` returns with neither. -/
  | otherEvent
  /-- `poll` times out. -/
  | timeout
  deriving DecidableEq, Repr

/-- A loop: what it still has to write, and the bytes the descriptor has taken, which it
does not read. -/
structure WriteLoop (π : Type) where
  pending : π
  delivered : Bytes
  retries : Nat
  call : WriteCall

variable {π : Type}

/-- The condition of the loop. -/
def WriteCall.check (ops : Pending π) (pending : π) : WriteCall :=
  if ops.finished pending then .returned 0 else .write

/-- The loop in front of its first call. -/
def WriteLoop.start (ops : Pending π) (pending : π) : WriteLoop π where
  pending
  delivered := []
  retries := 0
  call := .check ops pending

/-- One answer; a loop that waits for another one, or has returned, gets none. -/
def writeStep (ops : Pending π) (s : WriteLoop π) (reply : IoReply) : Option (WriteLoop π) :=
  match s.call, reply with
  | .write, .took w =>
    if w = 0 ∨ (ops.bytes s.pending).length < w then none
    else
      let pending := ops.advance w s.pending
      some
        { pending
          delivered := s.delivered ++ (ops.bytes s.pending).take w
          retries := 0
          call := .check ops pending }
  | .write, .zero => some { s with call := .returned (-1) }
  | .write, .interrupted => some s
  | .write, .wouldBlock =>
    let call := if writeRetryLimit < s.retries then .returned (-1) else .poll
    some { s with retries := s.retries + 1, call }
  | .write, .error => some { s with call := .returned (-1) }
  | .poll, .writable => some { s with call := .write }
  | .poll, .hangup => some { s with call := .returned (-1) }
  | .poll, .otherEvent => some s
  | .poll, .timeout => some { s with call := .returned (-1) }
  | .poll, .interrupted => some s
  | .poll, .error => some { s with call := .returned (-1) }
  | _, _ => none

/-- `http_response_write_all`. -/
def httpResponseWriteAll (buf : Bytes) : WriteLoop Bytes := .start bufferPending buf

/-- `http_response_writev_all`. -/
def httpResponseWritevAll (iov : List Segment) : WriteLoop (List Segment) :=
  .start segmentsPending iov

end Miniweb.Http
