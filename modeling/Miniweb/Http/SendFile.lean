import Miniweb.Http.FileCache
import Miniweb.Http.Response

/-! `src/http/response_file.c`: sending a file, through the file cache. What the system
answers to one call is a `FileWorld`; a call returns its result, the bytes it wrote to the
socket and the cache. -/
namespace Miniweb.Http

open Miniweb.Lib.CString Miniweb.Lib.Decimal Miniweb.Lib.Message

/-- What `read` returns: bytes (none at the end of the file), `EINTR`, or another error. -/
inductive ReadReply where
  | data (bytes : Bytes)
  | interrupted
  | error
  deriving DecidableEq, Repr

/-- The system during one call. -/
structure FileWorld where
  /-- `open` succeeds. -/
  opens : Bool
  fstat : Option Stat
  /-- The replies to `read`, one after another; behind them the file has ended. -/
  reads : List ReadReply
  /-- `http_response_create` has a response. -/
  response : Bool
  /-- `malloc` succeeds: for the copy of a hit, for the body, for an entry of the cache. -/
  mallocHit : Bool
  mallocBody : Bool
  mallocEntry : Bool
  /-- The clock at the lookup and at the store. -/
  lookedUp : Int
  stored : Int
  deriving DecidableEq, Repr

/-- The loop of `read_entire_file` with the bytes read so far; the function returns how many
there are, or -1 for none. -/
def readEntireFile (len : Nat) : Bytes → List ReadReply → Bytes
  | got, [] => got
  | got, reply :: rest =>
    if len ≤ got.length then got
    else
      match reply with
      | .data [] => got
      | .data bytes => readEntireFile len (got ++ bytes.take (len - got.length)) rest
      | .interrupted => readEntireFile len got rest
      | .error => got

/-- What the loop of `http_send_file` reads and writes piece by piece. -/
def streamFile : List ReadReply → Bytes
  | .data (c :: piece) :: rest => c :: piece ++ streamFile rest
  | _ => []

/-- The page of `http_send_error`. -/
def errorPage (statusCode : Int) (message : Bytes) : Bytes :=
  lit "<!DOCTYPE html><html><head><meta charset=\"UTF-8\"><title>" ++ signedText statusCode ++
    lit " Error</title><link rel=\"stylesheet\" href=\"/static/css/custom.css\"></head><body>" ++
    lit "<div class=\"container\"><h1>" ++ signedText statusCode ++ lit " Error</h1><p>" ++ message ++
    lit "</p><hr><p><a href=\"/\">MiniWeb</a> on OpenBSD</p></div></body></html>"

/-- `http_send_error` for a status other than 405 and a message that fits its page. -/
def httpSendError (world : FileWorld) (keepAlive : Bool) (statusCode : Int) (message : Bytes) :
    Int × Bytes :=
  if world.response then
    httpResponseSend keepAlive
      (httpResponseSetBody (httpResponseSetStatus {} statusCode)
        (.bytes (errorPage statusCode message)))
  else (-1, [])

/-- The response of `http_send_file` before it has a body. -/
def fileResponse (mime : Bytes) : HttpResponse :=
  let resp : HttpResponse := { contentType := mime }
  if (lit "text/plain").isPrefixOf mime then
    httpResponseAddHeader resp (lit "Content-Disposition") (lit "inline")
  else resp

/-- A call of `http_send_file`. -/
structure SendCall where
  world : FileWorld
  keepAlive : Bool
  path : Bytes
  mime : Bytes
  deriving DecidableEq, Repr

/-- What a call does: its result, what it wrote, and the hit of its lookup. -/
structure SendResult where
  rc : Int
  sent : Bytes := []
  hit : Option FileCacheHit := none
  deriving DecidableEq, Repr

/-- `http_send_file` behind a lookup that did not hit. -/
def sendUncached (cache : FileCache) (call : SendCall) (st : Stat) : SendResult × FileCache :=
  let world := call.world
  if 0 < st.size ∧ st.size.toNat ≤ fileCacheMaxBytes * 4 then
    if !world.mallocBody then ({ rc := -1 }, cache)
    else
      let body := readEntireFile st.size.toNat [] world.reads
      if body.length = 0 then
        let (rc, sent) := httpSendError world call.keepAlive 500 (lit "Read error")
        ({ rc, sent }, cache)
      else
        let (rc, sent) := httpResponseSend call.keepAlive
          (httpResponseSetBody (fileResponse call.mime) (.bytes body))
        -- The length handed to the store is the result of the send.
        ({ rc, sent },
          if rc = 0 then
            httpFileCacheStore cache call.path st body rc.toNat world.stored world.mallocEntry
          else cache)
  else
    let (rc, head) := httpResponseSend false
      (httpResponseSetBody (fileResponse call.mime) (.null (st.size % 2 ^ 64).toNat))
    if rc < 0 then ({ rc := -1 }, cache)
    else ({ rc := 0, sent := head ++ streamFile world.reads }, cache)

/-- `http_send_file`. -/
def httpSendFile (cache : FileCache) (call : SendCall) : SendResult × FileCache :=
  let world := call.world
  if !world.opens then
    let (rc, sent) := httpSendError world call.keepAlive 404 (lit "File not found")
    ({ rc, sent }, cache)
  else
    match world.fstat with
    | none =>
      let (rc, sent) := httpSendError world call.keepAlive 500 (lit "Cannot stat file")
      ({ rc, sent }, cache)
    | some st =>
      if !world.response then ({ rc := -1 }, cache)
      else
        match httpFileCacheLookup cache call.path st world.lookedUp world.mallocHit with
        | (some hit, cache) =>
          let (rc, sent) := httpResponseSend call.keepAlive
            (httpResponseSetBody (fileResponse call.mime) (.bytes hit.out))
          ({ rc, sent, hit := some hit }, cache)
        | (none, cache) => sendUncached cache call st

end Miniweb.Http
