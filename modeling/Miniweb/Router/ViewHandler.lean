import Miniweb.Lib.Transition
import Miniweb.Render.TemplateRender

/-! The pages of `src/router/route_table.c` and the table of them in
`src/router/url_registry_init.c`. Workers call `view_template_handler` side by
side; they share the cache of rendered pages and, below it, the cache of template
files, each under its own lock. A step is one section under one of the locks, or
the work of one worker between two of them; the section that may reload the files
takes its time, and is two steps. -/
namespace Miniweb.Router

open Miniweb.Lib Miniweb.Lib.CString Miniweb.Render

/-- `struct view_route`. -/
structure ViewRoute where
  method : Bytes
  path : Bytes
  title : Bytes
  page : Bytes
  extraHead : Bytes
  extraJs : Bytes
  deriving DecidableEq, Repr

/-- `view_routes`. -/
def viewRoutes : List ViewRoute :=
  [⟨lit "GET", lit "/", lit "MiniWeb - Dashboard", lit "dashboard.html",
      lit "dashboard_extra_head.html", lit "dashboard_extra_js.html"⟩,
    ⟨lit "GET", lit "/docs", lit "MiniWeb - Documentation", lit "docs.html",
      lit "docs_extra_head.html", lit "docs_extra_js.html"⟩,
    ⟨lit "GET", lit "/apiroot", lit "MiniWeb - API Root", lit "api.html",
      lit "api_extra_head.html", lit "api_extra_js.html"⟩,
    ⟨lit "GET", lit "/networking", lit "MiniWeb - Networking", lit "networking.html",
      lit "networking_extra_head.html", lit "networking_extra_js.html"⟩,
    ⟨lit "GET", lit "/packages", lit "MiniWeb - Package Manager", lit "packages.html",
      lit "packages_extra_head.html", lit "packages_extra_js.html"⟩]

/-- `find_view_route`. -/
def findViewRoute (method path : Bytes) : Option ViewRoute :=
  viewRoutes.find? fun view => view.method == method && view.path == path

/-- `HOT_VIEW_CACHE_TTL_SEC`. -/
abbrev hotViewCacheTtlSec : Int := 10

/-- The `path` of each entry of `g_hot_view_cache`. -/
def hotViewPaths : List Bytes := [lit "/", lit "/docs", lit "/networking", lit "/packages", lit "/apiroot"]

/-- `hot_view_cache_entry_t` without its `path`. -/
structure HotViewEntry where
  body : Option Bytes := none
  createdAt : Int := 0
  deriving DecidableEq, Repr

/-- `find_hot_view_cache_entry`; an entry is named by its path. -/
def findHotViewCacheEntry (path : Bytes) : Option Bytes := hotViewPaths.find? (· == path)

/-- What the handler reads of `http_request_t`. -/
structure ViewRequest where
  method : Bytes
  url : Bytes
  deriving DecidableEq, Repr

/-- The `data` of the handler. -/
def viewData (view : ViewRoute) : TemplateData where
  title := some view.title
  pageContent := some view.page
  extraHeadFile := some view.extraHead
  extraJsFile := some view.extraJs

/-- The `data` of `template_render`, which is tried when the page cannot be
rendered with it. -/
def plainData (view : ViewRoute) : TemplateData where
  title := some (lit "MiniWeb")
  pageContent := some view.page
  extraHeadFile := none
  extraJsFile := none

/-- The files of a layout, in the order they are read. -/
def layoutFiles (data : TemplateData) : List (Option Bytes) :=
  [some (lit "base.html"), data.pageContent, data.extraHeadFile, data.extraJsFile]

/-- What a request is answered with. -/
inductive ViewReply where
  | page (body : Bytes)
  | error (statusCode : Nat) (message : Bytes)
  deriving DecidableEq, Repr

/-- Where a worker stands in the handler. -/
inductive ViewStage where
  /-- Behind `time(NULL)`. -/
  | entered
  /-- Rendering with `data`, with the files read so far. `plain` tells which of
  the two renderings it is; `cacheEntry` is the entry to put the page into. -/
  | rendering (cacheEntry : Option Bytes) (view : ViewRoute) (plain : Bool) (data : TemplateData)
      (reads : List (Option Bytes))
  /-- In `read_template_file` for the next file, with `template_cache_lock`, behind
  the `time(NULL)` of the refresh. -/
  | refreshing (cacheEntry : Option Bytes) (view : ViewRoute) (plain : Bool) (data : TemplateData)
      (reads : List (Option Bytes)) (refreshNow : Int)
  /-- About to put the page into its entry. -/
  | rendered (cacheEntry : Bytes) (output : Bytes)
  /-- About to create the response and to send it. -/
  | replying (reply : ViewReply)
  deriving DecidableEq, Repr

/-- A call of `view_template_handler`. -/
structure ViewCall where
  req : ViewRequest
  now : Int
  stage : ViewStage
  deriving DecidableEq, Repr

/-- A request that was answered, with the `now` of its handler. -/
structure ViewAnswer where
  req : ViewRequest
  now : Int
  reply : ViewReply
  deriving DecidableEq, Repr

/-- The clock, the two caches, the calls by their worker, and the answers sent. -/
structure ViewServer where
  clock : Int
  hot : Bytes → HotViewEntry
  templates : TemplateCache
  /-- The worker that holds `template_cache_lock`. -/
  templateLock : Option Nat
  calls : Nat → Option ViewCall
  answers : List ViewAnswer

/-- What happens. The clock only goes forward. `allocated` is whether the copy of
the step could be made; `opendir` is the templates directory as a reload finds it. -/
inductive ViewAct where
  | tick (seconds : Nat)
  | enter (w : Nat) (req : ViewRequest)
  | lookup (w : Nat) (allocated : Bool)
  /-- The lock of the template cache is taken, and the clock read. -/
  | refresh (w : Nat)
  /-- The rest of the lock section, or a layout without the file. -/
  | read (w : Nat) (opendir : Option (List TemplateFile)) (allocated : Bool)
  | compose (w : Nat) (allocates : Nat → Bool)
  | store (w : Nat) (allocated : Bool)
  /-- `created` is whether `http_response_create` has a response. -/
  | reply (w : Nat) (created : Bool)

/-- A worker goes on. -/
def ViewServer.setCall (s : ViewServer) (w : Nat) (call : Option ViewCall) : ViewServer :=
  { s with calls := Function.update s.calls w call }

/-- A worker goes on within its call. -/
def ViewServer.setStage (s : ViewServer) (w : Nat) (call : ViewCall) (stage : ViewStage) :
    ViewServer := s.setCall w (some { call with stage })

/-- The lock section of the handler: the cached page, or the entry for a new one. -/
def hotViewLookup (hot : Bytes → HotViewEntry) (url : Bytes) (now : Int) :
    Option Bytes × Option Bytes :=
  if (strchr 63 url).isSome then (none, none)
  else
    match findHotViewCacheEntry url with
    | none => (none, none)
    | some entry =>
      match (hot entry).body with
      | none => (none, some entry)
      | some body =>
        if now - (hot entry).createdAt ≤ hotViewCacheTtlSec then (some body, some entry)
        else (none, some entry)

/-- Behind a lookup. -/
def viewLookedUp (hot : Bytes → HotViewEntry) (req : ViewRequest) (now : Int) (allocated : Bool) :
    ViewStage :=
  match hotViewLookup hot req.url now with
  | (some body, _) => .replying (if allocated then .page body else .error 500 (lit "Out of memory"))
  | (none, cacheEntry) =>
    match findViewRoute req.method req.url with
    | none => .replying (.error 404 (lit "Not Found"))
    | some view => .rendering cacheEntry view false (viewData view) []

/-- The rendering has failed: the second one begins, or the request. -/
def renderFailed (cacheEntry : Option Bytes) (view : ViewRoute) (plain : Bool) : ViewStage :=
  if plain then .replying (.error 500 (lit "Template rendering failed"))
  else .rendering cacheEntry view true (plainData view) []

/-- The next file of a layout has been read; the base and the page are needed. -/
def fileRead (cacheEntry : Option Bytes) (view : ViewRoute) (plain : Bool) (data : TemplateData)
    (reads : List (Option Bytes)) (content : Option Bytes) : ViewStage :=
  if reads.length < 2 ∧ content = none then renderFailed cacheEntry view plain
  else .rendering cacheEntry view plain data (reads ++ [content])

/-- The page is put together when all files have been read. -/
def pageComposed (cacheEntry : Option Bytes) (view : ViewRoute) (plain : Bool) (data : TemplateData)
    (reads : List (Option Bytes)) (allocates : Nat → Bool) : Option ViewStage :=
  match reads with
  | [some baseTemplate, some pageContent, extraHead, extraJs] =>
    match composeLayout allocates (data.title.getD [])
        { baseTemplate, pageContent, extraHead, extraJs } with
    | none => some (renderFailed cacheEntry view plain)
    | some output =>
      match cacheEntry with
      | none => some (.replying (.page output))
      | some entry => some (.rendered entry output)
  | _ => none

/-- One step of the workers. The templates are in the directory `dir`. -/
def viewStep (dir : Bytes) (s : ViewServer) : ViewAct → Option ViewServer
  | .tick seconds => some { s with clock := s.clock + seconds }
  | .enter w req =>
    match s.calls w with
    | none => some (s.setCall w (some { req, now := s.clock, stage := .entered }))
    | some _ => none
  | .lookup w allocated =>
    match s.calls w with
    | some call =>
      match call.stage with
      | .entered => some (s.setStage w call (viewLookedUp s.hot call.req call.now allocated))
      | _ => none
    | none => none
  | .refresh w =>
    match s.calls w with
    | some call =>
      match call.stage with
      | .rendering cacheEntry view plain data reads =>
        if (layoutFiles data)[reads.length]?.join.isSome ∧ s.templateLock = none then
          some ({ s with templateLock := some w }.setStage w call
            (.refreshing cacheEntry view plain data reads s.clock))
        else none
      | _ => none
    | none => none
  | .read w opendir allocated =>
    match s.calls w with
    | some call =>
      match call.stage with
      | .rendering cacheEntry view plain data reads =>
        if (layoutFiles data)[reads.length]? = some none then
          some (s.setStage w call (fileRead cacheEntry view plain data reads none))
        else none
      | .refreshing cacheEntry view plain data reads refreshNow =>
        match (layoutFiles data)[reads.length]?.join with
        | none => none
        | some filename =>
          let (templates, content) :=
            readTemplateFile { templatesDir := dir, opendir, now := refreshNow, loadedAt := s.clock }
              s.templates filename
          let content := if allocated then content else none
          some ({ s with templates, templateLock := none }.setStage w call
            (fileRead cacheEntry view plain data reads content))
      | _ => none
    | none => none
  | .compose w allocates =>
    match s.calls w with
    | some call =>
      match call.stage with
      | .rendering cacheEntry view plain data reads =>
        (pageComposed cacheEntry view plain data reads allocates).map (s.setStage w call)
      | _ => none
    | none => none
  | .store w allocated =>
    match s.calls w with
    | some call =>
      match call.stage with
      | .rendered entry output =>
        let hot :=
          if allocated then
            Function.update s.hot entry { body := some output, createdAt := call.now }
          else s.hot
        some ({ s with hot }.setStage w call (.replying (.page output)))
      | _ => none
    | none => none
  | .reply w created =>
    match s.calls w with
    | some call =>
      match call.stage with
      | .replying reply =>
        let answers :=
          if created then s.answers ++ [{ req := call.req, now := call.now, reply }] else s.answers
        some ({ s with answers }.setCall w none)
      | _ => none
    | none => none

/-- Behind `template_cache_init`. -/
def viewStart (world : TemplateWorld) : ViewServer where
  clock := world.loadedAt
  hot := fun _ => {}
  templates := (templateCacheReloadLocked world { entries := [], lastRefresh := 0 }).1
  templateLock := none
  calls := fun _ => none
  answers := []

end Miniweb.Router
