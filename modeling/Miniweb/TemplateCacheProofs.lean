import Miniweb.Render.TemplateCache

/-! What is left of the template cache when a reload fails. The reload clears the cache
before it knows whether there is anything to put in its place. -/
namespace Miniweb.TemplateCacheProofs

open Miniweb.Lib.CString Miniweb.Render

variable {world later : TemplateWorld} {cache : TemplateCache} {entries entries' : List TemplateEntry}
  {files : List TemplateFile}

/-- A template that was cached before can be read from the cache that is left: while a
reload still fails, and once it finds the template again. -/
def StillReads (before cache : TemplateCache) : Prop :=
  ∀ entry ∈ before.entries, ∀ later,
    (templateCacheReloadLocked later cache).2 = false ∨
      (∃ found ∈ (templateCacheReloadLocked later cache).1.entries, found.filename = entry.filename) →
    ∃ text, (readTemplateFile later cache entry.filename).2 = some text

/-- The reload has left the cached templates as they were, and readable. -/
def Kept (world : TemplateWorld) (cache : TemplateCache) : Prop :=
  (templateCacheReloadLocked world cache).1.entries = cache.entries ∧
    StillReads cache (templateCacheReloadLocked world cache).1

/-- Nothing is loaded without being in the cache. -/
theorem loaded_of_scan {loaded loaded' : Bool} (invariant : loaded = false → entries = [])
    (scanned : templateScan world entries loaded files = some (entries', loaded')) :
    loaded' = false → entries' = [] := by
  induction files generalizing entries loaded with
  | nil =>
    cases scanned
    exact invariant
  | cons file rest ih =>
    simp only [templateScan] at scanned
    split at scanned
    · exact ih invariant scanned
    · split at scanned
      · cases scanned
      · split at scanned
        · exact ih invariant scanned
        · split at scanned
          · exact ih invariant scanned
          · split at scanned
            · cases scanned
            · exact ih (fun unset => absurd unset Bool.noConfusion) scanned

/-- Wherever a reload fails, it leaves the cache empty. -/
theorem empty_of_failed (failed : (templateCacheReloadLocked world cache).2 = false) :
    (templateCacheReloadLocked world cache).1.entries = [] := by
  simp only [templateCacheReloadLocked] at failed ⊢
  split
  · rfl
  · rename_i files opened
    split
    · rfl
    · rename_i entries loaded scanned
      simp only [opened, scanned] at failed
      exact loaded_of_scan (fun _ => rfl) scanned failed

/-- Behind a scan that found no regular file the empty cache counts as fresh: nothing can
be read for a minute, whatever the directory holds by then. -/
theorem read_fails_of_scan (scanned : world.opendir = some files)
    (found : templateScan world [] false files = some (entries, false)) (set : world.loadedAt ≠ 0)
    (soon : later.now - world.loadedAt < templateCacheTtlSec) (filename : Bytes) :
    (readTemplateFile later (templateCacheReloadLocked world cache).1 filename).2 = none := by
  have empty : entries = [] := loaded_of_scan (fun _ => rfl) found rfl
  have left : (templateCacheReloadLocked world cache).1 =
      { entries := [], lastRefresh := world.loadedAt } := by
    simp [templateCacheReloadLocked, templateCacheCleanupLocked, scanned, found, empty]
  simp [readTemplateFile, templateCacheRefreshLocked, TemplateCache.fresh, left, set, soon]

/-- A failed reload leaves the cached templates as they were if and only if there were
none. -/
theorem kept_iff (failed : (templateCacheReloadLocked world cache).2 = false) :
    Kept world cache ↔ cache.entries = [] := by
  constructor
  · rintro ⟨same, _⟩
    rw [← same, empty_of_failed failed]
  · intro empty
    refine ⟨by rw [empty_of_failed failed, empty], fun entry member => ?_⟩
    rw [empty] at member
    cases member

/-- A reload of an empty cache that fails because the directory cannot be opened. -/
theorem kept_nothing :
    Kept { templatesDir := lit "templates", opendir := none, now := 100, loadedAt := 100 }
      { entries := [], lastRefresh := 0 } :=
  (kept_iff (by decide)).mpr rfl

/-- When the directory cannot be opened, the page that was cached is lost. -/
theorem reload_loses_templates :
    ¬ ∀ (world : TemplateWorld) (cache : TemplateCache),
      (templateCacheReloadLocked world cache).2 = false → Kept world cache := by
  intro always
  let page : TemplateEntry :=
    { filename := lit "base.html", content := lit "<html>", len := 6, mtime := 20 }
  obtain ⟨same, _⟩ := always { templatesDir := lit "templates", opendir := none, now := 100, loadedAt := 100 }
    { entries := [page], lastRefresh := 30 } rfl
  cases same

end Miniweb.TemplateCacheProofs
