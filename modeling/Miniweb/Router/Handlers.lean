import Miniweb.Http.ResponseStream
import Miniweb.Modules.ManApi
import Miniweb.Modules.ManRequest
import Miniweb.Net.Worker
import Miniweb.Router.InitRoutes
import Miniweb.Router.StaticHandler

/-! What the handlers send. Each of the functions the tables point to, from what the parts
behind it return to the response it passes to `http_response_send`; then a connection whose
requests they answer. -/
namespace Miniweb.Router

open Miniweb.Http Miniweb.Lib.CString Miniweb.Modules Miniweb.Modules.Packages Miniweb.Net

/-- What a handler writes. -/
inductive HandlerSends where
  /-- Nothing: it returns -1. -/
  | nothing
  | response (resp : HttpResponse)
  /-- The head of a response with the length of its body, and behind it the bytes of a file. -/
  | stream (resp : HttpResponse) (length : Nat) (file : Bytes)

/-- How `view_template_handler` goes, up to its reply. -/
inductive ViewFound where
  /-- The copy of a cached page, NULL without memory. -/
  | cached (copy : Option Bytes)
  | noRoute
  | rendered (output : Option Bytes)

/-- What the parts behind the handlers return during one request. -/
structure HandlerEnv where
  /-- The n-th `http_response_create` has a response. -/
  created : Nat → Bool
  view : ViewFound
  files : StaticEnv
  world : FileWorld
  fileCache : FileCache
  /-- `get_system_metrics_json`. -/
  metrics : Option Bytes
  /-- `networking_get_json`. -/
  networking : Option Bytes
  /-- The body `man_render_handler` has found or rendered for these parts. -/
  manPage : ManRequestParts → Option Bytes
  manApi : ManApiEnv
  packages : PkgEnv
  pkgState : PkgState

/-- A response with a content type, added headers and a body, in the handlers' order. -/
def handlerResponse (contentType : Bytes) (headers : List (Bytes × Bytes)) (body : Bytes) :
    HttpResponse :=
  httpResponseSetBody
    (headers.foldl (fun resp (name, value) => httpResponseAddHeader resp name value) { contentType })
    (.bytes body)

variable (registry : UrlRegistry (Option RouteHandler)) (env : HandlerEnv) (url : Bytes)

/-- `http_send_error` in a call of `http_response_create` that does so. -/
def errorSends (created : Bool) (statusCode : Int) (message : Bytes) : HandlerSends :=
  if created then .response (httpErrorResponse registry url statusCode message) else .nothing

/-- `view_template_handler`, with `http_send_html` for a cached page. -/
def viewSends : HandlerSends :=
  match env.view with
  | .cached none => errorSends registry url (env.created 0) 500 (lit "Out of memory")
  | .noRoute => errorSends registry url (env.created 0) 404 (lit "Not Found")
  | .rendered none => errorSends registry url (env.created 0) 500 (lit "Template rendering failed")
  | .cached (some body) | .rendered (some body) =>
    if env.created 0 then .response (httpResponseSetBody {} (.bytes body)) else .nothing

/-- `http_send_file`. -/
def fileSends (path mime : Bytes) : HandlerSends :=
  if !env.world.opens then errorSends registry url (env.created 0) 404 (lit "File not found")
  else
    match env.world.fstat with
    | none => errorSends registry url (env.created 0) 500 (lit "Cannot stat file")
    | some st =>
      if !env.created 0 then .nothing
      else
        match httpFileCacheLookup env.fileCache path st env.world.lookedUp env.world.mallocHit with
        | (some hit, _) => .response (httpResponseSetBody (fileResponse mime) (.bytes hit.out))
        | (none, _) =>
          if 0 < st.size ∧ st.size.toNat ≤ fileCacheMaxBytes * 4 then
            if !env.world.mallocBody then .nothing
            else
              let body := readEntireFile st.size.toNat [] env.world.reads
              if body.length = 0 then errorSends registry url (env.created 1) 500 (lit "Read error")
              else .response (httpResponseSetBody (fileResponse mime) (.bytes body))
          else .stream (fileResponse mime) (st.size % 2 ^ 64).toNat (streamFile env.world.reads)

/-- `favicon_handler`. -/
def faviconSends : HandlerSends :=
  fileSends registry env url (strlcpy 512 (env.files.staticDir ++ lit "/assets/favicon.svg"))
    (lit "image/svg+xml")

/-- The response of `send_redirect`. -/
def redirectResponse (statusCode : Int) (location : Bytes) : HttpResponse :=
  httpResponseSetBody
    (httpResponseAddHeader { statusCode, contentType := lit "text/plain; charset=utf-8" }
      (lit "Location") location) (.bytes [])

/-- `static_handler`. -/
def staticSends : HandlerSends :=
  match (staticHandler env.files url).2 with
  | .error statusCode message => errorSends registry url (env.created 0) statusCode message
  | .redirect statusCode location =>
    if env.created 0 then .response (redirectResponse statusCode location) else .nothing
  | .file path mime => fileSends registry env url path mime
  | .listing html =>
    if env.created 0 then .response (handlerResponse (lit "text/html; charset=utf-8") [] html)
    else .nothing

/-- A handler that sends a document, or an error where there is none or no response for it. -/
def documentSends (json : Option Bytes) (failed : Bytes) (headers : List (Bytes × Bytes)) :
    HandlerSends :=
  match json with
  | none => errorSends registry url (env.created 0) 500 failed
  | some json =>
    if env.created 0 then .response (handlerResponse (lit "application/json") headers json)
    else errorSends registry url (env.created 1) 500 (lit "Unable to allocate response")

/-- `metrics_handler`. -/
def metricsSends : HandlerSends :=
  documentSends registry env url env.metrics (lit "Unable to generate metrics")
    [(lit "Access-Control-Allow-Origin", lit "*"), (lit "Cache-Control", lit "no-store")]

/-- `networking_api_handler`. -/
def networkingSends : HandlerSends :=
  documentSends registry env url env.networking (lit "Network data collection failed")
    [(lit "Cache-Control", lit "no-store")]

/-- `man_mime_for_format`. -/
def manMimeForFormat (format : Bytes) : Bytes :=
  if format = lit "pdf" then lit "application/pdf"
  else if format = lit "ps" then lit "application/postscript"
  else if format = lit "md" then lit "text/markdown; charset=utf-8"
  else if format = lit "txt" then lit "text/plain; charset=utf-8"
  else lit "text/html; charset=utf-8"

/-- The headers of `man_add_content_disposition_for_format`. -/
def manContentDisposition (format page : Bytes) : List (Bytes × Bytes) :=
  if format = lit "pdf" then
    [(lit "Content-Disposition", strlcpy 256 (lit "inline; filename=\"" ++ page ++ lit ".pdf\""))]
  else if format = lit "md" ∨ format = lit "txt" then [(lit "Content-Disposition", lit "inline")]
  else if format = lit "ps" then
    [(lit "Content-Disposition", strlcpy 256 (lit "attachment; filename=\"" ++ page ++ lit ".ps\""))]
  else []

/-- `man_render_handler`. -/
def manRenderSends : HandlerSends :=
  match manParseUrl url with
  | .error refusal => errorSends registry url (env.created 0) 400 refusal.text
  | .ok parts =>
    match env.manPage parts with
    | none => errorSends registry url (env.created 0) 404 (lit "Manual page not found")
    | some body =>
      if env.created 0 then
        .response (handlerResponse (manMimeForFormat parts.format)
          ((lit "Cache-Control", lit "public, max-age=300") ::
            manContentDisposition parts.format parts.page) body)
      else .nothing

/-- The end of `man_api_handler`. -/
def manApiSends : HandlerSends :=
  match manApiHandler env.manApi url with
  | .error statusCode message => errorSends registry url (env.created 0) statusCode message
  | .body contentType json =>
    if env.created 0 then
      .response (handlerResponse contentType [(lit "Access-Control-Allow-Origin", lit "*")] json)
    else errorSends registry url (env.created 1) 500 (lit "Internal Server Error")

/-- The end of `pkg_api_handler`. Without a response it writes through NULL, and the model stops. -/
def pkgApiSends : HandlerSends :=
  match (pkgApiHandler env.packages env.pkgState url).reply with
  | .error statusCode message => errorSends registry url (env.created 0) statusCode message
  | .json json =>
    if env.created 0 then
      .response (handlerResponse (lit "application/json") [(lit "Access-Control-Allow-Origin", lit "*")] json)
    else .nothing

/-- The handler the tables have for a request. -/
def handlerSends : RouteHandler → HandlerSends
  | .viewTemplateHandler => viewSends registry env url
  | .faviconHandler => faviconSends registry env url
  | .staticHandler => staticSends registry env url
  | .metricsHandler => metricsSends registry env url
  | .networkingApiHandler => networkingSends registry env url
  | .manRenderHandler => manRenderSends registry env url
  | .manApiHandler => manApiSends registry env url
  | .pkgApiHandler => pkgApiSends registry env url

/-- `send_error_response`. -/
def sendErrorResponse (statusCode : Int) (message : Bytes) : HandlerSends :=
  errorSends registry (lit "/") (env.created 0) statusCode message

/-- What a worker does with the buffer of a connection whose header is complete: the
`keep_alive` of the request, and what is sent. -/
def answerBuffer (buf : Bytes) : Bool × HandlerSends :=
  match parseRequest buf with
  | none => (false, sendErrorResponse registry env 400 (lit "Bad Request"))
  | some req =>
    (req.keepAlive,
      match dispatchRequest registry req.method req.url with
      | .handler handler => handlerSends registry env req.url handler
      | .error resp => if env.created 0 then .response resp else .nothing)

/-! ## A connection -/

/-- A file that is streamed, with the bytes the descriptor has taken and those it has not. -/
structure FileStream where
  response : HttpResponse
  length : Nat
  file : Bytes
  taken : Bytes
  left : Bytes

/-- The responses of a connection, and the file behind them if its last response is one. -/
structure ServedStream where
  stream : ResponseStream := {}
  file : Option FileStream := none

/-- All bytes the client can have been sent. -/
def ServedStream.bytes (s : ServedStream) : Bytes :=
  s.stream.bytes ++ s.file.elim [] FileStream.taken

/-- What happens on a connection. -/
inductive ServeAct where
  /-- A header is complete in the buffer, and its request is answered. -/
  | request (buf : Bytes) (env : HandlerEnv)
  /-- The buffer is full without one. -/
  | tooLarge (env : HandlerEnv)
  | reply (reply : IoReply)
  | close
  /-- The descriptor takes so many bytes of a streamed file. -/
  | takes (count : Nat)

/-- A handler has decided what to send. -/
def ServedStream.sends (s : ServedStream) (keepAlive : Bool) : HandlerSends → Option ServedStream
  | .nothing => (streamStep s.stream .close).map fun stream => { s with stream }
  | .response resp =>
    (streamStep s.stream (.respond ⟨keepAlive, resp⟩)).map fun stream => { s with stream }
  | .stream resp length file =>
    (streamStep s.stream .close).map fun stream =>
      let (rc, head) := httpResponseSend false (httpResponseSetBody resp (.null length))
      if rc < 0 then { s with stream }
      else
        { stream
          file := some { response := resp, length, file, taken := [], left := head ++ file } }

/-- One step of a connection. -/
def serveStep (s : ServedStream) : ServeAct → Option ServedStream
  | .request buf env =>
    if s.stream.serving then
      let (keepAlive, sends) := answerBuffer registry env buf
      s.sends keepAlive sends
    else none
  | .tooLarge env =>
    if s.stream.serving then s.sends false (sendErrorResponse registry env 400 (lit "Request Too Large"))
    else none
  | .reply reply => (streamStep s.stream (.reply reply)).map fun stream => { s with stream }
  | .close => (streamStep s.stream .close).map fun stream => { s with stream }
  | .takes count =>
    match s.file with
    | none => none
    | some f =>
      if f.left.length < count then none
      else
        some { s with
          file := some { f with taken := f.taken ++ f.left.take count, left := f.left.drop count } }

end Miniweb.Router
