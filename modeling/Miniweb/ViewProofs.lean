import Miniweb.Router.ViewHandler
import Miniweb.TemplateRenderProofs

/-! How old a page may be. A page goes through two caches on its way from the
templates directory: the files are kept for a minute and the page for ten seconds,
and workers render and store side by side. -/
namespace Miniweb.ViewProofs

open Miniweb.Lib Miniweb.Lib.CString Miniweb.Render Miniweb.Router

/-- A reload of the template cache: the directory as it was found, and when that was over. -/
structure Scan where
  opendir : Option (List TemplateFile)
  endedAt : Int

/-- The reload there is in a call. -/
def scanOf (world : TemplateWorld) : Scan := ⟨world.opendir, world.loadedAt⟩

variable {dir : Bytes} {world start : TemplateWorld} {scan : Scan} {history later : List Scan}
  {cache : TemplateCache} {since until' : Int} {name content body : Bytes} {view : ViewRoute}
  {data : TemplateData} {s t : ViewServer} {act : ViewAct} {w : Nat} {call : ViewCall}
  {req : ViewRequest} {now : Int} {reads : List (Option Bytes)} {plain : Bool}
  {cacheEntry : Option Bytes} {stage : ViewStage}

/-! ## Where the text of a file comes from -/

/-- The directory had a file of that name with that content. -/
def FromScan (scan : Scan) (name content : Bytes) : Prop :=
  ∃ files, scan.opendir = some files ∧ ∃ file ∈ files, file.name = name ∧
    ∃ bytes, file.content = some bytes ∧ content = cstr bytes

/-- It had it in a reload that was over after `since`. -/
def ReadSince (history : List Scan) (since : Int) (name content : Bytes) : Prop :=
  ∃ scan ∈ history, since < scan.endedAt ∧ FromScan scan name content

/-- The files of a layout as they were read; a file that is not read leaves no
text. -/
def FilesSince (history : List Scan) (since : Int) :
    List (Option Bytes) → List (Option Bytes) → Prop :=
  List.Forall₂ fun file read => ∀ content, read = some content →
    ∃ name, file = some name ∧ ReadSince history since name content

/-- The body is a rendering of the page, from files read in reloads that were over after
`since`: the one with everything, or the plain one of `template_render`. -/
def PageSince (history : List Scan) (since : Int) (view : ViewRoute) (body : Bytes) : Prop :=
  ∃ data, (data = viewData view ∨ data = plainData view) ∧
    ∃ baseTemplate pageContent extraHead extraJs,
      FilesSince history since (layoutFiles data)
        [some baseTemplate, some pageContent, extraHead, extraJs] ∧
      composeLayout (fun _ => true) (data.title.getD [])
        { baseTemplate, pageContent, extraHead, extraJs } = some body

theorem ReadSince.mono (grown : history ⊆ later) (earlier : until' ≤ since)
    (read : ReadSince history since name content) : ReadSince later until' name content := by
  obtain ⟨scan, member, after, found⟩ := read
  exact ⟨scan, grown member, lt_of_le_of_lt earlier after, found⟩

theorem FilesSince.mono {files : List (Option Bytes)} (grown : history ⊆ later)
    (earlier : until' ≤ since) (read : FilesSince history since files reads) :
    FilesSince later until' files reads := by
  refine List.Forall₂.imp ?_ read
  intro file read known content same
  obtain ⟨name, named, since⟩ := known content same
  exact ⟨name, named, since.mono grown earlier⟩

theorem PageSince.mono (grown : history ⊆ later) (earlier : until' ≤ since)
    (page : PageSince history since view body) : PageSince later until' view body := by
  obtain ⟨data, which, base, content, head, js, files, composed⟩ := page
  exact ⟨data, which, base, content, head, js, files.mono grown earlier, composed⟩

/-! ## The cache of files -/

/-- Every cached file was in the directory in the last reload. -/
def Kept (history : List Scan) (cache : TemplateCache) : Prop :=
  ∀ entry ∈ cache.entries, ∃ scan ∈ history, scan.endedAt = cache.lastRefresh ∧
    FromScan scan entry.filename entry.content

/-- A scan adds files of the directory only. -/
theorem fromScan_of_scan {files rest : List TemplateFile} {entries entries' : List TemplateEntry}
    {loaded loaded' : Bool} (opened : world.opendir = some files) (inside : rest ⊆ files)
    (before : ∀ entry ∈ entries, FromScan (scanOf world) entry.filename entry.content)
    (scanned : templateScan world entries loaded rest = some (entries', loaded')) :
    ∀ entry ∈ entries', FromScan (scanOf world) entry.filename entry.content := by
  induction rest generalizing entries loaded with
  | nil =>
    cases scanned
    exact before
  | cons file rest ih =>
    have further : rest ⊆ files := fun f member => inside (List.mem_cons_of_mem _ member)
    simp only [templateScan] at scanned
    split at scanned
    · exact ih further before scanned
    · split at scanned
      · cases scanned
      · split at scanned
        · exact ih further before scanned
        · split at scanned
          · exact ih further before scanned
          · split at scanned
            · cases scanned
            · rename_i mtime _ entries'' added
              refine ih further ?_ scanned
              unfold addTemplateToCache at added
              split at added
              · cases added
              · rename_i bytes content
                split at added <;> cases added
                intro entry member
                rcases List.mem_append.mp member with old | new
                · exact before entry old
                · rw [List.mem_singleton.mp new]
                  exact ⟨files, opened, file, inside List.mem_cons_self, rfl, bytes, content, rfl⟩

/-- What a reload leaves was read in it. -/
theorem kept_reload (member : scanOf world ∈ history) :
    Kept history (templateCacheReloadLocked world cache).1 := by
  unfold templateCacheReloadLocked
  simp only
  split
  · exact fun _ inside => by cases inside
  · rename_i files opened
    split
    · exact fun _ inside => by cases inside
    · rename_i entries loaded scanned
      intro entry inside
      exact ⟨scanOf world, member, rfl,
        fromScan_of_scan opened (List.Subset.refl _) (fun _ none => by cases none) scanned entry inside⟩

theorem Kept.mono (grown : history ⊆ later) (kept : Kept history cache) : Kept later cache := by
  intro entry member
  obtain ⟨scan, before, since, found⟩ := kept entry member
  exact ⟨scan, grown before, since, found⟩

/-- A reload that succeeds was over when the clock was read behind it. -/
theorem lastRefresh_reload (succeeded : (templateCacheReloadLocked world cache).2 = true) :
    (templateCacheReloadLocked world cache).1.lastRefresh = world.loadedAt := by
  unfold templateCacheReloadLocked at succeeded ⊢
  simp only at succeeded ⊢
  split at succeeded
  · cases succeeded
  · split at succeeded
    · cases succeeded
    · rfl

/-- A file that is read was in the directory in a reload that was over less than a minute
before the clock was read, or is over only now. -/
theorem readTemplateFile_since (world : TemplateWorld) (since : Int) (name : Bytes) (kept : Kept history cache)
    (reloaded : cache.fresh world.now = false → scanOf world ∈ history)
    (young : since ≤ world.now - templateCacheTtlSec) (ended : since < world.loadedAt) :
    Kept history (readTemplateFile world cache name).1 ∧
      ∀ content, (readTemplateFile world cache name).2 = some content →
        ReadSince history since name content := by
  have refreshed : Kept history (templateCacheRefreshLocked world cache).1 ∧
      ((templateCacheRefreshLocked world cache).2 = true →
        since < (templateCacheRefreshLocked world cache).1.lastRefresh) := by
    unfold templateCacheRefreshLocked
    split
    · rename_i fresh
      have fresh := (of_decide_eq_true fresh).2
      exact ⟨kept, fun _ => by simp only; omega⟩
    · rename_i old
      refine ⟨kept_reload (reloaded (Bool.eq_false_iff.mpr old)), fun succeeded => ?_⟩
      rw [lastRefresh_reload succeeded]
      exact ended
  obtain ⟨kept', after⟩ := refreshed
  unfold readTemplateFile
  generalize templateCacheRefreshLocked world cache = result at kept' after
  obtain ⟨cache', succeeded⟩ := result
  simp only
  split
  · rename_i ready
    refine ⟨kept', fun content found => ?_⟩
    obtain ⟨entry, here, rfl⟩ := Option.map_eq_some_iff.mp found
    have named : entry.filename = name := by simpa using List.find?_some here
    obtain ⟨scan, before, last, from'⟩ := kept' entry (List.mem_of_find?_eq_some here)
    have after := after ready
    rw [← last] at after
    exact ⟨scan, before, after, named ▸ from'⟩
  · exact ⟨kept', fun _ nothing => by cases nothing⟩

/-! ## One worker -/

/-- A rendering of the page of the request, for which these files have been read. -/
def RenderingOk (history : List Scan) (req : ViewRequest) (now : Int) (cacheEntry : Option Bytes)
    (view : ViewRoute) (data : TemplateData) (reads : List (Option Bytes)) : Prop :=
  view ∈ viewRoutes ∧ view.path = req.url ∧ (cacheEntry = none ∨ cacheEntry = some req.url) ∧
    (data = viewData view ∨ data = plainData view) ∧
    FilesSince history (now - templateCacheTtlSec) ((layoutFiles data).take reads.length) reads

/-- What a worker holds, for a request to which it came at `now`. -/
def StageOk (history : List Scan) (req : ViewRequest) (now : Int) : ViewStage → Prop
  | .entered => True
  | .rendering cacheEntry view _ data reads =>
    RenderingOk history req now cacheEntry view data reads
  | .refreshing cacheEntry view _ data reads refreshNow =>
    now ≤ refreshNow ∧ RenderingOk history req now cacheEntry view data reads
  | .rendered cacheEntry output =>
    cacheEntry = req.url ∧ ∃ view ∈ viewRoutes, view.path = req.url ∧
      PageSince history (now - templateCacheTtlSec) view output
  | .replying (.page body) =>
    ∃ view ∈ viewRoutes, view.path = req.url ∧
      PageSince history (now - templateCacheTtlSec - hotViewCacheTtlSec) view body
  | .replying (.error _ _) => True

theorem RenderingOk.mono (grown : history ⊆ later)
    (ok : RenderingOk history req now cacheEntry view data reads) :
    RenderingOk later req now cacheEntry view data reads := by
  obtain ⟨known, path, entry, which, files⟩ := ok
  exact ⟨known, path, entry, which, files.mono grown (le_refl _)⟩

theorem StageOk.mono (grown : history ⊆ later) (ok : StageOk history req now stage) :
    StageOk later req now stage := by
  match stage with
  | .entered => trivial
  | .rendering _ _ _ _ _ => exact RenderingOk.mono grown ok
  | .refreshing _ _ _ _ _ _ => exact ⟨ok.1, ok.2.mono grown⟩
  | .rendered _ _ =>
    obtain ⟨entry, view, known, path, page⟩ := ok
    exact ⟨entry, view, known, path, page.mono grown (le_refl _)⟩
  | .replying (.page _) =>
    obtain ⟨view, known, path, page⟩ := ok
    exact ⟨view, known, path, page.mono grown (le_refl _)⟩
  | .replying (.error _ _) => trivial

theorem findViewRoute_path {method path : Bytes} (found : findViewRoute method path = some view) :
    view ∈ viewRoutes ∧ view.method = method ∧ view.path = path := by
  have same := List.find?_some found
  simp only [Bool.and_eq_true, beq_iff_eq] at same
  exact ⟨List.mem_of_find?_eq_some found, same⟩

/-- The cache of pages holds renderings of the page of each path, not much older
than it says. -/
def HotOk (history : List Scan) (hot : Bytes → HotViewEntry) : Prop :=
  ∀ path body, (hot path).body = some body → ∃ view ∈ viewRoutes, view.path = path ∧
    PageSince history ((hot path).createdAt - templateCacheTtlSec) view body

/-- A hit is for this path, and not too old. -/
theorem hotViewLookup_cases (hot : Bytes → HotViewEntry) (url : Bytes) (now : Int) :
    (∃ body, hotViewLookup hot url now = (some body, some url) ∧ (hot url).body = some body ∧
      now - (hot url).createdAt ≤ hotViewCacheTtlSec) ∨
    ∃ entry, hotViewLookup hot url now = (none, entry) ∧ (entry = none ∨ entry = some url) := by
  unfold hotViewLookup
  split
  · exact .inr ⟨none, rfl, .inl rfl⟩
  · split
    · exact .inr ⟨none, rfl, .inl rfl⟩
    · rename_i entry found
      obtain rfl : entry = url := by simpa using List.find?_some found
      split
      · exact .inr ⟨_, rfl, .inr rfl⟩
      · rename_i body stored
        split
        · rename_i young
          exact .inl ⟨body, rfl, stored, young⟩
        · exact .inr ⟨_, rfl, .inr rfl⟩

/-- A page is stored with the `now` of the request it was rendered for. -/
theorem HotOk.store {hot : Bytes → HotViewEntry} {output : Bytes} (ok : HotOk history hot)
    (known : view ∈ viewRoutes) (page : PageSince history (now - templateCacheTtlSec) view output) :
    HotOk history
      (Function.update hot view.path { body := some output, createdAt := now }) := by
  intro path body stored
  by_cases same : path = view.path
  · subst same
    rw [Function.update_self] at stored ⊢
    cases stored
    exact ⟨view, known, rfl, page⟩
  · rw [Function.update_of_ne same] at stored ⊢
    exact ok path body stored

theorem stageOk_lookedUp {hot : Bytes → HotViewEntry} {allocated : Bool} (ok : HotOk history hot) :
    StageOk history req now (viewLookedUp hot req now allocated) := by
  unfold viewLookedUp
  rcases hotViewLookup_cases hot req.url now with
    ⟨body, hit, stored, young⟩ | ⟨entry, missed, which⟩
  · rw [hit]
    cases allocated with
    | false => trivial
    | true =>
      obtain ⟨view, known, path, page⟩ := ok req.url body stored
      exact ⟨view, known, path, page.mono (List.Subset.refl _) (by omega)⟩
  · rw [missed]
    simp only
    split
    · trivial
    · rename_i view found
      obtain ⟨known, _, path⟩ := findViewRoute_path found
      exact ⟨known, path, which, .inl rfl, .nil⟩

theorem stageOk_failed (known : view ∈ viewRoutes) (path : view.path = req.url)
    (which : cacheEntry = none ∨ cacheEntry = some req.url) :
    StageOk history req now (renderFailed cacheEntry view plain) := by
  unfold renderFailed
  split
  · trivial
  · exact ⟨known, path, which, .inr rfl, .nil⟩

/-- One more file has been read. -/
theorem stageOk_fileRead {file read : Option Bytes}
    (ok : RenderingOk history req now cacheEntry view data reads)
    (next : (layoutFiles data)[reads.length]? = some file)
    (since : ∀ content, read = some content → ∃ name, file = some name ∧
      ReadSince history (now - templateCacheTtlSec) name content) :
    StageOk history req now (fileRead cacheEntry view plain data reads read) := by
  obtain ⟨known, path, which, whole, files⟩ := ok
  unfold fileRead
  split
  · exact stageOk_failed known path which
  · refine ⟨known, path, which, whole, ?_⟩
    have longer : (layoutFiles data).take (reads ++ [read]).length =
        (layoutFiles data).take reads.length ++ [file] := by
      rw [List.length_append, List.length_singleton, List.take_add_one, next]
      rfl
    rw [longer]
    exact List.rel_append files (.cons since .nil)

/-- Where the page can be put together, it is what it would be with all the memory
there could be. -/
theorem composeLayout_allocates {allocates : Nat → Bool} {title output : Bytes}
    {fragments : LayoutFragments} (composed : composeLayout allocates title fragments = some output) :
    composeLayout (fun _ => true) title fragments = some output := by
  have pairs : ∀ (pairs : List PlaceholderPair) (i : Nat) (text output : Bytes),
      replacePairs allocates i text pairs = some output →
      replacePairs (fun _ => true) i text pairs = some output := by
    intro pairs
    induction pairs with
    | nil => exact fun _ _ _ replaced => replaced
    | cons pair rest ih =>
      intro i text output replaced
      have single : ∀ next, replaceSingle (allocates (i + 1)) text pair.needle (pair.value.getD []) =
          some next → replaceSingle true text pair.needle (pair.value.getD []) = some next := by
        intro next replaced
        rw [TemplateRenderProofs.replaceSingle_eq] at replaced ⊢
        exact (Option.ite_none_right_eq_some.mp replaced).2
      simp only [replacePairs] at replaced ⊢
      split at replaced
      · cases replaced
      · rename_i next first
        rw [single next first]
        exact ih _ _ _ replaced
  unfold composeLayout replaceAll replacePlaceholders at composed ⊢
  split at composed
  · exact pairs _ _ _ _ composed
  · cases composed

theorem stageOk_composed {allocates : Nat → Bool}
    (ok : RenderingOk history req now cacheEntry view data reads)
    (composed : pageComposed cacheEntry view plain data reads allocates = some stage) :
    StageOk history req now stage := by
  obtain ⟨known, path, which, whole, files⟩ := ok
  unfold pageComposed at composed
  split at composed
  · rename_i base content head js
    split at composed
    · cases composed
      exact stageOk_failed known path which
    · rename_i output together
      have page : PageSince history (now - templateCacheTtlSec) view output :=
        ⟨data, whole, base, content, head, js, files, composeLayout_allocates together⟩
      split at composed
      · cases composed
        exact ⟨view, known, path, page.mono (List.Subset.refl _) (by simp)⟩
      · rename_i entry
        cases composed
        rcases which with nothing | same
        · cases nothing
        · exact ⟨Option.some.inj same, view, known, path, page⟩
  · cases composed

/-! ## The server -/

/-- The reloads of a run. -/
def seenScans (s : ViewServer) (act : ViewAct) (history : List Scan) : List Scan :=
  match act with
  | .read w opendir _ =>
    match (s.calls w).map ViewCall.stage with
    | some (.refreshing _ _ _ _ _ refreshNow) =>
      if s.templates.fresh refreshNow then history else ⟨opendir, s.clock⟩ :: history
    | _ => history
  | _ => history

/-- In every state: where the cached files, the cached pages and what the workers
hold come from. -/
structure ViewInv (s : ViewServer) (history : List Scan) : Prop where
  kept : Kept history s.templates
  hot : HotOk history s.hot
  calls : ∀ w call, s.calls w = some call → call.now ≤ s.clock ∧
    StageOk history call.req call.now call.stage
  answers : ∀ answer ∈ s.answers, StageOk history answer.req answer.now (.replying answer.reply)

theorem HotOk.mono {hot : Bytes → HotViewEntry} (grown : history ⊆ later) (ok : HotOk history hot) :
    HotOk later hot := by
  intro path body stored
  obtain ⟨view, known, same, page⟩ := ok path body stored
  exact ⟨view, known, same, page.mono grown (le_refl _)⟩

/-- One worker has moved, the others stand where they stood. -/
theorem ViewInv.move {next : Option ViewCall} (inv : ViewInv s history) (grown : history ⊆ later)
    (calls : t.calls = Function.update s.calls w next) (clock : t.clock = s.clock)
    (kept : Kept later t.templates) (hot : HotOk later t.hot)
    (answers : ∀ answer ∈ t.answers, StageOk later answer.req answer.now (.replying answer.reply))
    (ok : ∀ call, next = some call → call.now ≤ s.clock ∧ StageOk later call.req call.now call.stage) :
    ViewInv t later := by
  refine ⟨kept, hot, fun w' call holds => ?_, answers⟩
  rw [calls] at holds
  rw [clock]
  rcases Transition.update_cases holds with ⟨rfl, now⟩ | ⟨_, before⟩
  · exact ok call now
  · obtain ⟨past, stage⟩ := inv.calls w' call before
    exact ⟨past, stage.mono grown⟩

/-- A worker goes on with what it holds, and touches neither cache. -/
theorem ViewInv.goOn (inv : ViewInv s history) (holds : s.calls w = some call)
    (ok : StageOk history call.req call.now stage) : ViewInv (s.setStage w call stage) history := by
  refine inv.move (List.Subset.refl _) rfl rfl inv.kept inv.hot inv.answers ?_
  rintro _ ⟨⟩
  exact ⟨(inv.calls w call holds).1, ok⟩

/-- A layout without the file reloads nothing. -/
theorem seenScans_rendering {opendir : Option (List TemplateFile)} {allocated : Bool}
    (holds : s.calls w = some call) (rendering : call.stage = .rendering cacheEntry view plain data reads) :
    seenScans s (.read w opendir allocated) history = history := by
  rw [seenScans, holds, Option.map_some, rendering]

/-- A cache that is old is reloaded. -/
theorem seenScans_refreshing (history : List Scan) (opendir : Option (List TemplateFile))
    (allocated : Bool) {asked : Int} (holds : s.calls w = some call)
    (refreshing : call.stage = .refreshing cacheEntry view plain data reads asked) :
    history ⊆ seenScans s (.read w opendir allocated) history ∧
      (s.templates.fresh asked = false →
        ⟨opendir, s.clock⟩ ∈ seenScans s (.read w opendir allocated) history) := by
  rw [seenScans, holds, Option.map_some, refreshing]
  dsimp only
  split
  · rename_i fresh
    refine ⟨List.Subset.refl _, fun old => ?_⟩
    rw [fresh] at old
    cases old
  · exact ⟨List.subset_cons_self _ _, fun _ => List.mem_cons_self⟩

theorem viewInv_start : ViewInv (viewStart start) [scanOf start] :=
  ⟨kept_reload (List.mem_singleton.mpr rfl), fun _ _ stored => (by cases stored),
    fun _ _ holds => (by cases holds), fun _ member => (by cases member)⟩

theorem viewInv_step (inv : ViewInv s history) (taken : viewStep dir s act = some t) :
    ViewInv t (seenScans s act history) := by
  cases act with
  | tick seconds =>
    cases taken
    refine ⟨inv.kept, inv.hot, fun w call holds => ?_, inv.answers⟩
    obtain ⟨past, ok⟩ := inv.calls w call holds
    exact ⟨by simp only; omega, ok⟩
  | enter w req =>
    simp only [viewStep] at taken
    split at taken <;> cases taken
    refine inv.move (List.Subset.refl _) rfl rfl inv.kept inv.hot inv.answers ?_
    rintro _ ⟨⟩
    exact ⟨le_refl _, trivial⟩
  | lookup w allocated =>
    simp only [viewStep] at taken
    split at taken
    · rename_i call holds
      split at taken <;> cases taken
      exact inv.goOn holds (stageOk_lookedUp inv.hot)
    · cases taken
  | refresh w =>
    simp only [viewStep] at taken
    split at taken
    · rename_i call holds
      split at taken
      · rename_i cacheEntry view plain data reads rendering
        obtain ⟨past, ok⟩ := inv.calls w call holds
        rw [rendering] at ok
        split at taken <;> cases taken
        refine inv.move (List.Subset.refl _) rfl rfl inv.kept inv.hot inv.answers ?_
        rintro _ ⟨⟩
        exact ⟨past, past, ok⟩
      · cases taken
    · cases taken
  | read w opendir allocated =>
    simp only [viewStep] at taken
    split at taken
    · rename_i call holds
      obtain ⟨past, ok⟩ := inv.calls w call holds
      split at taken
      · rename_i cacheEntry view plain data reads rendering
        rw [rendering] at ok
        rw [seenScans_rendering holds rendering]
        split at taken
        · rename_i next
          cases taken
          exact inv.goOn holds (stageOk_fileRead ok next fun _ nothing => by cases nothing)
        · cases taken
      · rename_i cacheEntry view plain data reads refreshNow refreshing
        rw [refreshing] at ok
        obtain ⟨asked, ok⟩ := ok
        obtain ⟨grown, reloaded⟩ := seenScans_refreshing history opendir allocated holds refreshing
        split at taken
        · cases taken
        · rename_i filename next
          cases taken
          have young : call.now - templateCacheTtlSec ≤ refreshNow - templateCacheTtlSec := by omega
          have ended : call.now - templateCacheTtlSec < s.clock := by
            simp only [templateCacheTtlSec]
            omega
          obtain ⟨kept, since⟩ := readTemplateFile_since ⟨dir, opendir, refreshNow, s.clock⟩ _ filename
            (inv.kept.mono grown) reloaded young ended
          refine inv.move grown rfl rfl kept (inv.hot.mono grown)
            (fun answer member => (inv.answers answer member).mono grown) ?_
          rintro _ ⟨⟩
          have next := Option.join_eq_some_iff.mp next
          refine ⟨past, stageOk_fileRead (ok.mono grown) next fun content found => ⟨filename, rfl, ?_⟩⟩
          exact since content (Option.ite_none_right_eq_some.mp found).2
      · cases taken
    · cases taken
  | compose w allocates =>
    simp only [viewStep] at taken
    split at taken
    · rename_i call holds
      split at taken
      · rename_i cacheEntry view plain data reads rendering
        obtain ⟨stage, composed, rfl⟩ := Option.map_eq_some_iff.mp taken
        obtain ⟨_, ok⟩ := inv.calls w call holds
        rw [rendering] at ok
        exact inv.goOn holds (stageOk_composed ok composed)
      · cases taken
    · cases taken
  | store w allocated =>
    simp only [viewStep] at taken
    split at taken
    · rename_i call holds
      split at taken
      · rename_i entry output rendered
        cases taken
        obtain ⟨past, ok⟩ := inv.calls w call holds
        rw [rendered] at ok
        obtain ⟨rfl, view, known, path, page⟩ := ok
        refine inv.move (List.Subset.refl _) rfl rfl inv.kept ?_ inv.answers ?_
        · cases allocated with
          | false => exact inv.hot
          | true =>
            rw [← path]
            exact inv.hot.store known page
        · rintro _ ⟨⟩
          exact ⟨past, view, known, path, page.mono (List.Subset.refl _) (by simp)⟩
      · cases taken
    · cases taken
  | reply w created =>
    simp only [viewStep] at taken
    split at taken
    · rename_i call holds
      split at taken
      · rename_i reply replying
        cases taken
        obtain ⟨_, ok⟩ := inv.calls w call holds
        rw [replying] at ok
        refine inv.move (List.Subset.refl _) rfl rfl inv.kept inv.hot ?_ fun _ nothing => by cases nothing
        intro answer member
        cases created with
        | false => exact inv.answers answer member
        | true =>
          rcases List.mem_append.mp member with old | new
          · exact inv.answers answer old
          · rw [List.mem_singleton.mp new]
            exact ok
      · cases taken
    · cases taken

/-- Whatever the workers do side by side while the clock goes forward, and whatever happens
to the templates directory meanwhile: a page sent to a request is a rendering of the page of
its path, all of it from files that were read from the directory in reloads that ended less
than 70 seconds before the request. -/
theorem pages_are_recent
    (reached : Transition.Reach (Transition.recorded (viewStep dir) seenScans) Transition.Any
      (viewStart start, [scanOf start]) (s, history)) :
    ∀ answer ∈ s.answers, ∀ body, answer.reply = .page body →
      ∃ view ∈ viewRoutes, view.path = answer.req.url ∧
        PageSince history (answer.now - 70) view body := by
  have inv : ViewInv s history :=
    reached.invariant (P := fun x => ViewInv x.1 x.2) viewInv_start fun x act y inv _ taken => by
      obtain ⟨t, stepped, rfl⟩ := Option.map_eq_some_iff.mp taken
      exact viewInv_step inv stepped
  intro answer member body page
  have ok := inv.answers answer member
  rw [page] at ok
  obtain ⟨view, known, path, since⟩ := ok
  exact ⟨view, known, path, since.mono (List.Subset.refl _) (by
    simp only [templateCacheTtlSec, hotViewCacheTtlSec]
    omega)⟩

/-- A directory with a base and one page. -/
def smallDirectory : List TemplateFile :=
  [⟨lit "base.html", some (true, 1), some (lit "\x7b\x7btitle\x7d\x7d: \x7b\x7bpage_content\x7d\x7d"),
      true, true⟩,
    ⟨lit "docs.html", some (true, 1), some (lit "read me"), true, true⟩]

/-- Worker 0 renders and stores the page, with a reload that takes two seconds; worker 1
comes nine seconds later, when the directory is gone. -/
def renderedThenCached : List ViewAct :=
  [.tick 60, .enter 0 ⟨lit "GET", lit "/docs"⟩, .lookup 0 true, .refresh 0, .tick 2,
    .read 0 (some smallDirectory) true, .tick 1, .refresh 0, .read 0 none true, .refresh 0,
    .read 0 none true, .refresh 0, .read 0 none true, .compose 0 (fun _ => true), .store 0 true,
    .reply 0 true, .tick 6, .enter 1 ⟨lit "GET", lit "/docs"⟩, .lookup 1 true, .reply 1 true]

theorem pages_are_recent_cached :
    ∃ x : ViewServer × List Scan, ∃ answer ∈ x.1.answers, answer.now = 169 ∧
      answer.reply = .page (lit "MiniWeb - Documentation: read me") ∧
      ∃ view ∈ viewRoutes, view.path = answer.req.url ∧
        PageSince x.2 99 view (lit "MiniWeb - Documentation: read me") := by
  let start : TemplateWorld := ⟨lit "templates", some smallDirectory, 100, 100⟩
  have ran : (Transition.run (Transition.guarded Transition.Any
      (Transition.recorded (viewStep (lit "templates")) seenScans))
      (viewStart start, [scanOf start]) renderedThenCached).map (fun x => x.1.answers[1]?) =
      some (some ⟨⟨lit "GET", lit "/docs"⟩, 169,
        .page (lit "MiniWeb - Documentation: read me")⟩) := by decide +kernel
  obtain ⟨⟨s, history⟩, reached, seen⟩ := Transition.exists_reach_of_run ran
  have member := List.mem_of_getElem? seen
  obtain ⟨view, known, path, page⟩ := pages_are_recent reached _ member _ rfl
  exact ⟨(s, history), _, member, rfl, rfl, view, known, path, page⟩

end Miniweb.ViewProofs
