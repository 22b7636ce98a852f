import Miniweb.Lib.CString
import Miniweb.Net.ConnectionPool

/-! `src/net/worker.c`: how a worker reads a request off a connection, parses
it and prepares the connection for the next one. The functions here are what a
worker computes between two system calls; `Miniweb.Net.Session` puts one
connection under them, `Miniweb.Net.Server` the whole server. -/
namespace Miniweb.Net

open Miniweb.Lib.CString

/-- `MAX_KEEPALIVE_REQUESTS`. -/
abbrev maxKeepaliveRequests : Nat := 64

/-- The method, path and version buffers `parse_request_line` fills. -/
structure RequestLine where
  method : Bytes
  url : Bytes
  version : Bytes
  deriving DecidableEq, Repr

/-- `parse_request_line`; `none` for its -1. -/
def parseRequestLine (buf : Bytes) : Option RequestLine :=
  match strchr 32 buf with
  | none => none
  | some mlen =>
    if mlen = 0 then none
    else
      let afterMethod := buf.drop (mlen + 1)
      match strchr 32 afterMethod with
      | none => none
      | some ulen =>
        let afterUrl := afterMethod.drop (ulen + 1)
        match strstr (lit "\r\n") afterUrl with
        | none => none
        | some vlen =>
          if ulen = 0 ∨ vlen = 0 then none
          else if 32 ≤ mlen ∨ 512 ≤ ulen ∨ 32 ≤ vlen then none
          else
            some
              { method := buf.take mlen
                url := afterMethod.take ulen
                version := afterUrl.take vlen }

/-- `find_header_end`: the offset of the header terminator. -/
def findHeaderEnd (buf : Bytes) : Option Nat := strstr (lit "\r\n\r\n") buf

/-- The search loop of `request_keep_alive` from `p` on. Each round moves `p`
past a header name, so the length of the buffer bounds the rounds. -/
def keepAliveFrom : Nat → Bytes → Option Bool
  | 0, _ => none
  | rounds + 1, p =>
    match strcasestr (lit "\r\nConnection:") p with
    | none => none
    | some at' =>
      let p := (p.drop (at' + 13)).dropWhile isblank
      if strncaseeq p (lit "close") then some false
      else if strncaseeq p (lit "keep-alive") then some true
      else keepAliveFrom rounds p

/-- `request_keep_alive`. -/
def requestKeepAlive (buf version : Bytes) : Bool :=
  (keepAliveFrom (buf.length + 1) buf).getD (version = lit "HTTP/1.1")

/-- What a worker hands to a handler: the fields of `http_request_t` taken from
the request. -/
structure Request where
  method : Bytes
  url : Bytes
  version : Bytes
  keepAlive : Bool
  deriving DecidableEq, Repr

/-- The request a complete buffer holds; `none` when the worker answers 400. -/
def parseRequest (buf : Bytes) : Option Request :=
  (parseRequestLine buf).map fun line =>
    { method := line.method
      url := line.url
      version := line.version
      keepAlive := requestKeepAlive buf line.version }

/-- What `recv` returns: bytes (none at the end of the stream), `EAGAIN` or
`EWOULDBLOCK`, or another error. -/
inductive RecvResult where
  | data (bytes : Bytes)
  | again
  | error
  deriving DecidableEq, Repr

/-- Subtraction of `size_t` values. -/
def sizeSub (a b : Int) : Nat := ((a - b) % 2 ^ 64).toNat

/-- The length a worker asks `recv` for:
`(size_t)max_req_size - conn->bytes_read - 1`. -/
def recvLength (maxReqSize : Int) (conn : Connection) : Nat :=
  sizeSub (sizeSub maxReqSize conn.bytesRead) 1

/-- The connection after `recv` stored `bytes` behind `bytes_read` and the
worker wrote the NUL behind them. -/
def storeReceived (conn : Connection) (bytes : Bytes) (now : Time) : Connection :=
  { conn with
    bytesRead := conn.bytesRead + bytes.length
    lastActivity := now
    buffer := conn.buffer.take conn.bytesRead ++ bytes }

/-- Where one round of the read loop leaves the worker. -/
inductive ReadRound where
  /-- `EAGAIN`: re-enable the event and go on to the next connection. -/
  | release
  /-- The loop is left with nothing to answer. -/
  | close
  /-- The buffer is full without a header end: answer 400 and close. -/
  | tooLarge (conn : Connection)
  /-- Call `recv` again. -/
  | more (conn : Connection)
  /-- The header is complete. -/
  | complete (conn : Connection)
  deriving DecidableEq, Repr

/-- The body of the read loop after `recv` returned `result`. -/
def readRound (maxReqSize : Int) (conn : Connection) (now : Time) : RecvResult → ReadRound
  | .again => .release
  | .error => .close
  | .data bytes =>
    if bytes = [] then .close
    else
      let conn := storeReceived conn bytes now
      if (findHeaderEnd (cstr conn.buffer)).isSome then .complete conn
      else if sizeSub maxReqSize 1 ≤ conn.bytesRead then .tooLarge conn
      else .more conn

/-- The request in the buffer of a connection whose header is complete. -/
def requestOf (conn : Connection) : Option Request := parseRequest (cstr conn.buffer)

/-- What a handler leaves behind: its return code, and whether it cleared
`req->keep_alive`, as `http_send_file` does for a file it streams. -/
structure HandlerOutcome where
  result : Int := 0
  clearsKeepAlive : Bool := false
  deriving DecidableEq, Repr

/-- The test `req.keep_alive && handler_result == 0` after the handler. -/
def keepsConnection (req : Request) (handler : HandlerOutcome) : Bool :=
  (req.keepAlive && !handler.clearsKeepAlive) && handler.result = 0

/-- `try_rearm_keepalive` up to its `kevent` call: `none` when the connection
has served its last request, else the connection reset for the next one. -/
def tryRearmKeepalive (conn : Connection) (now : Time) : Option Connection :=
  if maxKeepaliveRequests ≤ conn.requestsServed then none
  else
    some
      { conn with
        requestsServed := conn.requestsServed + 1
        bytesRead := 0
        buffer := []
        lastActivity := now }

end Miniweb.Net
