import Miniweb.Lib.Decimal
import Miniweb.Lib.Message

/-! `src/http/response_api.c`: a response with its two fixed buffers, the headers
a handler adds to it and the bytes it is sent as. The socket is one that takes
every byte it is offered. -/
namespace Miniweb.Http

open Miniweb.Lib.CString Miniweb.Lib.Decimal Miniweb.Lib.Message

/-- `body` and `body_len`: the bytes there, or NULL with a length all the same. -/
inductive ResponseBody where
  | bytes (body : Bytes)
  | null (bodyLen : Nat)

/-- `body_len`. -/
def ResponseBody.length : ResponseBody → Nat
  | .bytes body => body.length
  | .null bodyLen => bodyLen

/-- What there is to send behind the header. -/
def ResponseBody.sent : ResponseBody → Bytes
  | .bytes body => body
  | .null _ => []

@[simp] theorem ResponseBody.length_bytes (body : Bytes) :
    (ResponseBody.bytes body).length = body.length := rfl

@[simp] theorem ResponseBody.sent_bytes (body : Bytes) : (ResponseBody.bytes body).sent = body := rfl

/-- `http_response_t`, as `http_response_create` returns it. `headers` is the text
in `headers[]` up to `headers_len`. -/
structure HttpResponse where
  statusCode : Int := 200
  contentType : Bytes := lit "text/html; charset=utf-8"
  body : ResponseBody := .null 0
  headers : Bytes := []

/-- `sizeof(resp->headers)`. -/
abbrev headersSize : Nat := 2048

/-- `sizeof(header)` in `http_response_send`. -/
abbrev headerSize : Nat := 4096

/-- `http_response_set_status`. -/
def httpResponseSetStatus (resp : HttpResponse) (code : Int) : HttpResponse :=
  { resp with statusCode := code }

/-- `http_response_set_body`. -/
def httpResponseSetBody (resp : HttpResponse) (body : ResponseBody) : HttpResponse :=
  { resp with body }

/-- A header without its line end. -/
def headerLine (name value : Bytes) : Bytes := name ++ lit ": " ++ value

/-- `http_response_add_header`. The text is never empty, so `len > 0`; one that
does not fit is cut by `snprintf`, and `headers_len` set to the last byte. -/
def httpResponseAddHeader (resp : HttpResponse) (name value : Bytes) : HttpResponse :=
  if resp.headers.length ≥ headersSize then resp
  else
    let space := headersSize - resp.headers.length
    let text := headerLine name value ++ crlf
    if text.length < space then { resp with headers := resp.headers ++ text }
    else { resp with headers := resp.headers ++ text.take (space - 1) }

/-- `http_response_status_text`. -/
def httpResponseStatusText (statusCode : Int) : Bytes :=
  match statusCode with
  | 200 => lit "OK"
  | 301 => lit "Moved Permanently"
  | 302 => lit "Found"
  | 304 => lit "Not Modified"
  | 400 => lit "Bad Request"
  | 403 => lit "Forbidden"
  | 404 => lit "Not Found"
  | 405 => lit "Method Not Allowed"
  | 500 => lit "Internal Server Error"
  | 503 => lit "Service Unavailable"
  | _ => lit "Unknown"

/-- The first line. -/
def statusLine (statusCode : Int) : Bytes :=
  lit "HTTP/1.1 " ++ signedText statusCode ++ lit " " ++ httpResponseStatusText statusCode

/-- The headers every response has. -/
def standardHeaders (keepAlive : Bool) (contentType : Bytes) (bodyLen : Nat) : List Bytes :=
  [lit "Content-Type: " ++ contentType,
    lit "Content-Length: " ++ decimalText bodyLen,
    lit "Connection: " ++ (if keepAlive then lit "keep-alive" else lit "close"),
    lit "Server: MiniWeb/kqueue"]

/-- The text of the first `snprintf` of `http_response_send`. -/
def baseHeader (keepAlive : Bool) (resp : HttpResponse) : Bytes :=
  statusLine resp.statusCode ++ crlf ++
    ((standardHeaders keepAlive resp.contentType resp.body.length).map (· ++ crlf)).flatten

/-- The header of `http_response_send`; `none` where it returns -1 before it
writes. -/
def responseHeader (keepAlive : Bool) (resp : HttpResponse) : Option Bytes :=
  let header := baseHeader keepAlive resp
  if header.length ≥ headerSize then none
  else
    let header :=
      if resp.headers.length > 0 then
        let space := headerSize - header.length
        if resp.headers.length < space then header ++ resp.headers else header
      else header
    if header.length + 2 ≥ headerSize then none else some (header ++ crlf)

/-- `http_response_send`: what it returns, and the bytes it has written. -/
def httpResponseSend (keepAlive : Bool) (resp : HttpResponse) : Int × Bytes :=
  match responseHeader keepAlive resp with
  | none => (-1, [])
  | some header =>
    (0, if resp.body.sent.length > 0 then header ++ resp.body.sent else header)

end Miniweb.Http
