import Miniweb.Lib.CString

/-! `src/render/template_render.c`: the cache of template files. Every function here runs
under `template_cache_lock`; what the file system and the allocator answer to one reload
is a `TemplateWorld`. -/
namespace Miniweb.Render

open Miniweb.Lib.CString

/-- `TEMPLATE_CACHE_TTL_SEC`. -/
abbrev templateCacheTtlSec : Int := 60

/-- `PATH_MAX`. -/
abbrev pathMax : Nat := 1024

/-- `template_entry_t`; the content is the string in the buffer. -/
structure TemplateEntry where
  filename : Bytes
  content : Bytes
  len : Nat
  mtime : Int
  deriving DecidableEq, Repr

/-- `template_cache` up to `template_cache_count`, and `template_cache_last_refresh`. -/
structure TemplateCache where
  entries : List TemplateEntry
  lastRefresh : Int
  deriving DecidableEq, Repr

/-- A name `readdir` returns, with what the calls for it return. -/
structure TemplateFile where
  name : Bytes
  /-- `stat`, where it succeeds: whether the file is a regular one, and `st_mtime`. -/
  stat : Option (Bool × Int)
  /-- The bytes `read_file_content` reads, where it succeeds. -/
  content : Option Bytes
  /-- `realloc` of the cache and `strdup` of the name succeed. -/
  reallocs : Bool
  copies : Bool
  deriving DecidableEq, Repr

/-- The outside during one call: the templates directory, the names in it where `opendir`
succeeds, and the clock. -/
structure TemplateWorld where
  templatesDir : Bytes
  opendir : Option (List TemplateFile)
  /-- `time(NULL)` of `template_cache_refresh_locked`. -/
  now : Int
  /-- `time(NULL)` behind the loop of `template_cache_reload_locked`. -/
  loadedAt : Int
  deriving DecidableEq, Repr

/-- `add_template_to_cache`; `none` for its -1. -/
def addTemplateToCache (entries : List TemplateEntry) (file : TemplateFile) (mtime : Int) :
    Option (List TemplateEntry) :=
  match file.content with
  | none => none
  | some bytes =>
    if file.reallocs ∧ file.copies then
      let content := cstr bytes
      some (entries ++ [{ filename := file.name, content, len := content.length, mtime }])
    else none

/-- The loop of `template_cache_reload_locked` with the entries and `loaded`; `none` where
it returns from inside. -/
def templateScan (world : TemplateWorld) :
    List TemplateEntry → Bool → List TemplateFile → Option (List TemplateEntry × Bool)
  | entries, loaded, [] => some (entries, loaded)
  | entries, loaded, file :: rest =>
    if file.name = lit "." ∨ file.name = lit ".." then templateScan world entries loaded rest
    else if pathMax ≤ (world.templatesDir ++ lit "/" ++ file.name).length then none
    else
      match file.stat with
      | none => templateScan world entries loaded rest
      | some (regular, mtime) =>
        if !regular then templateScan world entries loaded rest
        else
          match addTemplateToCache entries file mtime with
          | none => none
          | some entries => templateScan world entries true rest

/-- `template_cache_cleanup_locked`. -/
def templateCacheCleanupLocked (cache : TemplateCache) : TemplateCache := { cache with entries := [] }

/-- `template_cache_reload_locked`: the cache afterwards, and whether it returns 0. -/
def templateCacheReloadLocked (world : TemplateWorld) (cache : TemplateCache) :
    TemplateCache × Bool :=
  let cache := templateCacheCleanupLocked cache
  match world.opendir with
  | none => (cache, false)
  | some files =>
    match templateScan world cache.entries false files with
    | none => (templateCacheCleanupLocked cache, false)
    | some (entries, loaded) => ({ entries, lastRefresh := world.loadedAt }, loaded)

/-- The test of `template_cache_refresh_locked`: there is no need to reload. -/
def TemplateCache.fresh (cache : TemplateCache) (now : Int) : Bool :=
  cache.lastRefresh ≠ 0 ∧ now - cache.lastRefresh < templateCacheTtlSec

/-- `template_cache_refresh_locked`. -/
def templateCacheRefreshLocked (world : TemplateWorld) (cache : TemplateCache) :
    TemplateCache × Bool :=
  if cache.fresh world.now then (cache, true) else templateCacheReloadLocked world cache

/-- `read_template_file`, where `strdup` of the content succeeds: the cache afterwards and
the content, `none` for its -1. -/
def readTemplateFile (world : TemplateWorld) (cache : TemplateCache) (filename : Bytes) :
    TemplateCache × Option Bytes :=
  let (cache, refreshed) := templateCacheRefreshLocked world cache
  if refreshed then
    (cache, (cache.entries.find? fun entry => entry.filename == filename).map (·.content))
  else (cache, none)

end Miniweb.Render
