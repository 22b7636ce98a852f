import Miniweb.Lib.CString

/-! `src/http/utils_subprocess.c`: `safe_popen_read_argv`, which runs a program and reads what
it prints. What the kernel answers in a round of its loop is the round's input. -/
namespace Miniweb.Http

open Miniweb.Lib.CString

/-- The values of `errno` that are told apart. -/
inductive Errno where
  | eintr
  /-- `EAGAIN` or `EWOULDBLOCK`. -/
  | eagain
  | other
  deriving DecidableEq, Repr

/-- `pfd.revents`. -/
structure Revents where
  pollin : Bool
  pollerr : Bool
  pollhup : Bool
  deriving DecidableEq, Repr

/-- What `read` answers: bytes, none of them at the end of the output, or an error. -/
inductive PipeReply where
  | data (bytes : Bytes)
  | error (errno : Errno)
  deriving DecidableEq, Repr

/-- What `poll` answers: 0, an error, or events; then what `read` would answer. -/
inductive PollReply where
  | expired
  | error (errno : Errno)
  | ready (revents : Revents) (read : PipeReply)
  deriving DecidableEq, Repr

/-- A round of the loop: `time(NULL)`, and the answers. -/
structure PopenRound where
  now : Int
  poll : PollReply
  deriving DecidableEq, Repr

/-- What is left to decide outside: whether `pipe`, `fork` and the buffer's allocation succeed,
and `time(NULL)` when the deadline is set. -/
structure PopenEnv where
  pipe : Bool
  fork : Bool
  malloc : Bool
  started : Int

/-- How a round ends: with `continue` or at the end of the body, or with `break`. -/
inductive RoundEnd where
  | again (buffer : Bytes)
  | broke (buffer : Bytes) (timedOut : Bool)
  deriving DecidableEq, Repr

/-- `revents & (POLLERR | POLLHUP)`. -/
def Revents.hungUp (revents : Revents) : Bool := revents.pollerr || revents.pollhup

/-- The body of the loop with the bytes read so far. -/
def popenRound (deadline : Int) (buffer : Bytes) (round : PopenRound) : RoundEnd :=
  if deadline ≤ round.now then .broke buffer true
  else
    match round.poll with
    | .expired => .broke buffer true
    | .error errno => if errno = .eintr then .again buffer else .broke buffer false
    | .ready revents read =>
      if revents.pollin then
        match read with
        | .error errno => if errno = .eagain then .again buffer else .broke buffer false
        | .data [] => .broke buffer false
        | .data bytes =>
          if revents.hungUp then .broke (buffer ++ bytes) false else .again (buffer ++ bytes)
      else if revents.hungUp then .broke buffer false
      else .again buffer

/-- The loop: the bytes read and `timed_out`, or `none` when it is not done with these
rounds. -/
def popenLoop (maxSize : Nat) (deadline : Int) : Bytes → List PopenRound → Option (Bytes × Bool)
  | buffer, rounds =>
    if maxSize ≤ buffer.length then some (buffer, false)
    else
      match rounds with
      | [] => none
      | round :: rest =>
        match popenRound deadline buffer round with
        | .again buffer => popenLoop maxSize deadline buffer rest
        | .broke buffer timedOut => some (buffer, timedOut)

/-- What `safe_popen_read_argv` leaves: the buffer it returns, `*out_len` where it is set, and
whether the child was killed. -/
structure PopenResult where
  buffer : Option Bytes
  outLen : Option Nat
  killed : Bool
  deriving DecidableEq, Repr

/-- `deadline`. -/
def PopenEnv.deadline (env : PopenEnv) (timeoutSeconds : Int) : Int :=
  env.started + if 0 < timeoutSeconds then timeoutSeconds else 5

/-- `safe_popen_read_argv`. -/
def safePopenReadArgv (env : PopenEnv) (maxSize : Nat) (timeoutSeconds : Int)
    (rounds : List PopenRound) : Option PopenResult :=
  if !env.pipe || !env.fork then some { buffer := none, outLen := none, killed := false }
  else if !env.malloc then some { buffer := none, outLen := none, killed := true }
  else
    (popenLoop maxSize (env.deadline timeoutSeconds) [] rounds).map fun (buffer, timedOut) =>
      { buffer := if timedOut || buffer.length = 0 then none else some buffer
        outLen := some buffer.length
        killed := timedOut }

end Miniweb.Http
