import Miniweb.Modules.ManRender

/-! `src/modules/man/man_render.c`: requests for one page variant over its cache file,
`man_render_handler` with `write_file_binary`. Each step of a request is one system
call, one call of the cache in memory or the rendering, in any order with the steps of
the others; the reply says what the call returned. The paths of the variant fit, and
nothing else touches the file. -/
namespace Miniweb.Modules

open Miniweb.Lib.CString

/-- `MAN_FS_CACHE_TTL_SEC`. -/
abbrev manFsCacheTtl : Int := 300

/-- The file once it exists: its bytes and `st_mtime`. -/
structure ManCacheFile where
  bytes : Bytes := []
  mtime : Int
  deriving DecidableEq, Repr

/-- `write` at the offset of the descriptor; a gap behind the end reads as zero. -/
def ManCacheFile.write (file : ManCacheFile) (off : Nat) (piece : Bytes) (now : Int) :
    ManCacheFile where
  bytes := file.bytes.take off ++ List.replicate (off - file.bytes.length) 0 ++ piece ++
    file.bytes.drop (off + piece.length)
  mtime := now

/-- The next call of a request in `man_render_handler`. -/
inductive ManRequest where
  /-- `man_render_cache_get`. -/
  | lookup
  /-- `stat` of the cache file. -/
  | stat
  /-- `open` for reading. -/
  | openRead
  /-- `fstat`. -/
  | fstat
  /-- `malloc` and `read` of as many bytes as `fstat` said. -/
  | read (size : Nat)
  /-- `man_render_cache_put` of what was read. -/
  | load (body : Bytes)
  /-- `man_resolve_path` and `man_render_page`. -/
  | render
  /-- `man_render_cache_put` of the page, in the section it was found in. -/
  | keep (found : ManVariant) (body : Bytes)
  /-- `mkdir_p` and the `open` of `write_file_binary`. -/
  | create (body : Bytes)
  /-- `write` of the rest of the body from this offset. -/
  | write (body : Bytes) (off : Nat)
  /-- `send_response`. -/
  | send (body : Bytes)
  /-- An error has been sent. -/
  | failed
  deriving DecidableEq

/-- The request is in the loop of `write_file_binary`. -/
def ManRequest.writing : ManRequest → Bool
  | .write _ _ => true
  | _ => false

/-- What a call returned, with the time where it matters. -/
inductive ManReply where
  | fails
  | returns (now : Int)
  /-- `man_render_page` returned a body. -/
  | rendered (found : ManVariant) (body : Bytes)
  /-- `read` returned this many bytes. -/
  | got (count : Nat)
  /-- `write` took this many bytes. -/
  | wrote (count : Nat) (now : Int)
  /-- `mkdir_p` failed. -/
  | noDirectory

/-- The file, the cache in memory and the requests. `outputs` are the bodies passed to
`write_file_binary` so far, and `abandoned` says that the last call to open the file
failed at a write; no step reads them. -/
structure ManFiles (ι : Type) where
  file : Option ManCacheFile := none
  cache : ManRenderCache := fun _ _ => {}
  requests : ι → ManRequest := fun _ => .lookup
  outputs : List Bytes := []
  abandoned : Bool := false

variable {ι : Type} [DecidableEq ι]

/-- The size of the file. -/
def ManFiles.size (s : ManFiles ι) : Nat := (s.file.map fun file => file.bytes.length).getD 0

/-- The request goes on to its next call. -/
def ManFiles.goto (s : ManFiles ι) (i : ι) (request : ManRequest) : ManFiles ι :=
  { s with requests := Function.update s.requests i request }

/-- `stat` and `fstat` say that there is something to read, `stat` also that it is
recent. -/
def ManCacheFile.usable (file : ManCacheFile) (now : Int) : Bool :=
  0 < file.bytes.length && now - file.mtime ≤ manFsCacheTtl

/-- One call of request `i` and the reply to it; a request without a reply to its call
waits. -/
def manFileStep (variant : ManVariant) (s : ManFiles ι) : ι × ManReply → Option (ManFiles ι)
  | (i, reply) =>
    match s.requests i, reply with
    | .lookup, .returns now =>
      let (copy, cache) := manRenderCacheGet s.cache variant now
      let s := { s with cache }
      match copy with
      | some body => some (s.goto i (.send body))
      | none => some (s.goto i .stat)
    | .stat, .fails => some (s.goto i .render)
    | .stat, .returns now =>
      s.file.map fun file => s.goto i (if file.usable now then .openRead else .render)
    | .openRead, .fails => some (s.goto i .render)
    | .openRead, .returns _ => s.file.map fun _ => s.goto i .fstat
    | .fstat, .fails => some (s.goto i .render)
    | .fstat, .returns _ =>
      s.file.map fun file =>
        s.goto i (if 0 < file.bytes.length then .read file.bytes.length else .render)
    | .read _, .fails => some (s.goto i .render)
    | .read size, .got count =>
      s.file.bind fun file =>
        if size < count ∨ file.bytes.length < count then none
        else if count = size then some (s.goto i (.load (file.bytes.take count)))
        else some (s.goto i .render)
    | .load body, .returns now =>
      let s := { s with cache := manRenderCachePut s.cache variant body now }
      some (s.goto i (.send body))
    | .render, .fails => some (s.goto i .failed)
    | .render, .rendered found body => some (s.goto i (.keep found body))
    | .keep found body, .returns now =>
      let s := { s with cache := manRenderCachePut s.cache found body now }
      some (s.goto i (.create body))
    | .create body, .noDirectory => some (s.goto i (.send body))
    | .create body, .fails =>
      let s := { s with outputs := body :: s.outputs }
      some (s.goto i (.send body))
    | .create body, .returns now =>
      let s := { s with outputs := body :: s.outputs }
      if body.length = 0 then some (s.goto i (.send body))
      else
        let s := { s with file := some { mtime := now }, abandoned := false }
        some (s.goto i (.write body 0))
    | .write body _, .fails =>
      let s := { s with abandoned := true }
      some (s.goto i (.send body))
    | .write body off, .wrote count now =>
      s.file.bind fun file =>
        if count = 0 ∨ body.length - off < count then none
        else
          let s := { s with file := some (file.write off ((body.drop off).take count) now) }
          some (s.goto i (if off + count < body.length then .write body (off + count) else .send body))
    | _, _ => none

end Miniweb.Modules
