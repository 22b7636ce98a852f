import Miniweb.Lib.CString

/-! `src/router/route_table.c`: the handler of static files. It returns the reply with
the calls that take a path, in order. -/
namespace Miniweb.Router

open Miniweb.Lib.CString

/-- A name `readdir` returns: an entry of one directory, at most `NAME_MAX` bytes long. -/
structure DirName where
  name : Bytes
  nonempty : name ≠ []
  noSlash : 47 ∉ name
  fits : name.length ≤ 255

/-- What the handler reads of the configuration and asks of the system. -/
structure StaticEnv where
  staticDir : Bytes
  autoindex : Bool
  /-- `stat`, where it succeeds: whether the path is a directory. -/
  stat : Bytes → Option Bool
  /-- `access(.., R_OK) == 0`. -/
  access : Bytes → Bool
  /-- `opendir` and the names `readdir` returns. -/
  opendir : Bytes → Option (List DirName)
  /-- The n-th allocation of a request succeeds. -/
  allocates : Nat → Bool

/-- A call that takes a path. -/
inductive FileCall where
  | stat (path : Bytes)
  | access (path : Bytes)
  | opendir (path : Bytes)
  | sendFile (path : Bytes)
  deriving DecidableEq, Repr

/-- The path it takes. -/
def FileCall.path : FileCall → Bytes
  | .stat path | .access path | .opendir path | .sendFile path => path

/-- What the handler answers with. -/
inductive StaticReply where
  | error (statusCode : Nat) (message : Bytes)
  | redirect (statusCode : Nat) (location : Bytes)
  | file (path mime : Bytes)
  | listing (html : Bytes)
  deriving DecidableEq, Repr

/-- `mime_type_for_path`. -/
def mimeTypeForPath (path : Bytes) : Bytes :=
  match strrchr 46 path with
  | none => lit "application/octet-stream"
  | some at' =>
    let ext := path.drop at'
    if ext = lit ".html" then lit "text/html"
    else if ext = lit ".css" then lit "text/css"
    else if ext = lit ".js" then lit "application/javascript"
    else if ext = lit ".png" then lit "image/png"
    else if ext = lit ".svg" then lit "image/svg+xml"
    else if ext = lit ".jpg" ∨ ext = lit ".jpeg" then lit "image/jpeg"
    else if ext = lit ".gif" then lit "image/gif"
    else if ext = lit ".ico" then lit "image/x-icon"
    else if ext = lit ".pdf" then lit "application/pdf"
    else if ext = lit ".ps" then lit "application/postscript"
    else if ext = lit ".md" then lit "text/markdown; charset=utf-8"
    else if ext = lit ".txt" then lit "text/plain; charset=utf-8"
    else lit "application/octet-stream"

/-! ## The listing of a directory -/

/-- What `html_escape` writes for one byte. -/
def htmlEscapeByte (c : UInt8) : Bytes :=
  if c = 38 then lit "&amp;"
  else if c = 60 then lit "&lt;"
  else if c = 62 then lit "&gt;"
  else if c = 34 then lit "&quot;"
  else [c]

/-- `html_escape`, where its allocation succeeds. -/
def htmlEscape (s : Bytes) : Bytes := s.flatMap htmlEscapeByte

/-- The buffer `append_str` writes to, with the allocations made so far. -/
structure HtmlBuffer where
  text : Bytes
  cap : Nat
  allocations : Nat
  deriving DecidableEq, Repr

/-- The capacity doubled until `need` bytes fit. -/
def growCapacity (need cap : Nat) : Nat :=
  if need ≤ cap ∨ cap = 0 then cap else growCapacity need (cap * 2)
termination_by need - cap

/-- `append_str`; `none` for its -1. -/
def appendStr (env : StaticEnv) (b : HtmlBuffer) (s : Bytes) : Option HtmlBuffer :=
  let need := b.text.length + s.length + 1
  if b.cap < need then
    if env.allocates b.allocations then
      some
        { text := b.text ++ s
          cap := growCapacity need b.cap
          allocations := b.allocations + 1 }
    else none
  else some { b with text := b.text ++ s }

/-- The line of an entry. -/
def listingItem (name : Bytes) (isDir : Bool) : Bytes :=
  let shown := htmlEscape name ++ if isDir then lit "/" else []
  strlcpy 1024 (lit "<li><a href=\"" ++ shown ++ lit "\">" ++ shown ++ lit "</a></li>")

/-- `pbuf`. -/
def entryPath (fullpath name : Bytes) : Bytes := strlcpy 1024 (fullpath ++ lit "/" ++ name)

/-- The loop of `send_autoindex`: the calls it makes, and the buffer behind it unless an
append failed. -/
def listEntries (env : StaticEnv) (fullpath : Bytes) :
    HtmlBuffer → List DirName → List FileCall × Option HtmlBuffer
  | b, [] => ([], some b)
  | b, de :: rest =>
    if de.name = lit "." ∨ de.name = lit ".." then listEntries env fullpath b rest
    else
      let pbuf := entryPath fullpath de.name
      let isDir := env.stat pbuf == some true
      let escaped := env.allocates b.allocations
      let b := { b with allocations := b.allocations + 1 }
      if escaped then
        match appendStr env b (listingItem de.name isDir) with
        | none => ([.stat pbuf], none)
        | some b =>
          let (calls, result) := listEntries env fullpath b rest
          (.stat pbuf :: calls, result)
      else
        let (calls, result) := listEntries env fullpath b rest
        (.stat pbuf :: calls, result)

/-- The pieces in front of the entries. -/
def listingHead (reqPath : Bytes) : List Bytes :=
  [lit "<!DOCTYPE html><html><head><meta charset=\"UTF-8\">" ++
      lit "<meta name=\"viewport\" content=\"width=device-width,initial-scale=1\">" ++
      lit "<title>Index of ",
    htmlEscape reqPath,
    lit "</title><link rel=\"stylesheet\" href=\"/static/css/custom.css\">" ++
      lit "</head><body><div class=\"container\"><h1>Index of ",
    htmlEscape reqPath,
    lit "</h1><ul>"] ++
  if reqPath = lit "/static/" then [] else [lit "<li><a href=\"../\">../</a></li>"]

/-- `http_send_error(req, 500, "Out of memory")`. -/
def outOfMemory : StaticReply := .error 500 (lit "Out of memory")

/-- `send_autoindex`. -/
def sendAutoindex (env : StaticEnv) (reqPath fullpath : Bytes) : List FileCall × StaticReply :=
  match env.opendir fullpath with
  | none => ([.opendir fullpath], .error 403 (lit "Directory listing disabled"))
  | some names =>
    -- the buffer and the escaped path
    if ¬ (env.allocates 0 ∧ env.allocates 1) then ([.opendir fullpath], outOfMemory)
    else
      let start : HtmlBuffer := { text := [], cap := 4096, allocations := 2 }
      match (listingHead reqPath).foldlM (appendStr env) start with
      | none => ([.opendir fullpath], outOfMemory)
      | some b =>
        let (calls, result) := listEntries env fullpath b names
        match result.bind fun b => appendStr env b (lit "</ul></div></body></html>") with
        | none => (.opendir fullpath :: calls, outOfMemory)
        | some b => (.opendir fullpath :: calls, .listing b.text)

/-! ## The handler -/

/-- Tries one index file: whether it is there, with the call made if its path fits. -/
def tryIndex (env : StaticEnv) (fullpath name : Bytes) : List FileCall × Bool :=
  let indexPath := fullpath ++ lit "/" ++ name
  if indexPath.length < 512 then ([.access indexPath], env.access indexPath) else ([], false)

/-- The branch of `static_handler` for a directory. -/
def serveDirectory (env : StaticEnv) (reqPath fullpath : Bytes) : List FileCall × StaticReply :=
  let send (name : Bytes) : FileCall × StaticReply :=
    (.sendFile (fullpath ++ lit "/" ++ name),
      .file (fullpath ++ lit "/" ++ name) (mimeTypeForPath name))
  if ¬ env.autoindex then ([], .error 403 (lit "Directory listing disabled"))
  else if reqPath.getLast? ≠ some 47 then
    let redirect := reqPath ++ lit "/"
    if 512 ≤ redirect.length then ([], .error 414 (lit "URI Too Long"))
    else ([], .redirect 301 redirect)
  else
    let (html, hasHtml) := tryIndex env fullpath (lit "index.html")
    if hasHtml then
      let (call, reply) := send (lit "index.html")
      (html ++ [call], reply)
    else
      let (htm, hasHtm) := tryIndex env fullpath (lit "index.htm")
      if hasHtm then
        let (call, reply) := send (lit "index.htm")
        (html ++ htm ++ [call], reply)
      else
        let (calls, reply) := sendAutoindex env reqPath fullpath
        (html ++ htm ++ calls, reply)

/-- The part of the path behind `/static`, with one slash dropped; `.` for none. -/
def staticRelpath (reqPath : Bytes) : Bytes :=
  let relpath := reqPath.drop 7
  let relpath := if relpath.head? = some 47 then relpath.tail else relpath
  if relpath = [] then lit "." else relpath

/-- `static_handler`. -/
def staticHandler (env : StaticEnv) (url : Bytes) : List FileCall × StaticReply :=
  let reqPath := url.takeWhile fun c => c ≠ 63 ∧ c ≠ 35
  if reqPath.length = 0 ∨ 512 ≤ reqPath.length then ([], .error 400 (lit "Bad Request"))
  else if ¬ lit "/static" <+: reqPath then ([], .error 404 (lit "Not Found"))
  else
    let relpath := staticRelpath reqPath
    if (strstr (lit "..") relpath).isSome ∨ (strstr (lit "//") relpath).isSome then
      ([], .error 403 (lit "Forbidden"))
    else
      let fullpath := env.staticDir ++ lit "/" ++ relpath
      if 512 ≤ fullpath.length then ([], .error 414 (lit "URI Too Long"))
      else
        match env.stat fullpath with
        | none => ([.stat fullpath], .error 404 (lit "File not found"))
        | some true =>
          let (calls, reply) := serveDirectory env reqPath fullpath
          (.stat fullpath :: calls, reply)
        | some false =>
          ([.stat fullpath, .sendFile fullpath], .file fullpath (mimeTypeForPath relpath))

end Miniweb.Router
