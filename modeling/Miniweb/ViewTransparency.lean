import Miniweb.TemplateCacheProofs
import Miniweb.ViewProofs

/-! The caches of pages and of files are not seen while nothing changes: as long
as the templates directory stays as it is and there is memory for the copies, every
worker answers as one would that reads all its files itself, in whatever order the
workers fill and read the caches. -/
namespace Miniweb.ViewTransparency

open Miniweb.Lib Miniweb.Lib.CString Miniweb.Render Miniweb.Router Miniweb.ViewProofs

variable {world start : TemplateWorld} {cache : TemplateCache} {entries : List TemplateEntry}
  {name output : Bytes} {view : ViewRoute} {data : TemplateData} {s t : ViewServer} {act : ViewAct}
  {w : Nat} {call : ViewCall} {req : ViewRequest} {reads : List (Option Bytes)} {plain : Bool}
  {cacheEntry : Option Bytes} {stage : ViewStage}

/-! ## The files of a directory that stays -/

/-- What a reload makes of the directory; nothing where it fails. -/
def scanned (world : TemplateWorld) : List TemplateEntry :=
  match world.opendir with
  | none => []
  | some files =>
    match templateScan world [] false files with
    | none => []
    | some (entries, _) => entries

/-- The content of a cached file. -/
def textOf (entries : List TemplateEntry) (filename : Bytes) : Option Bytes :=
  (entries.find? fun entry => entry.filename == filename).map (·.content)

/-- A cache that holds this, or that was never filled. -/
def Settled (entries : List TemplateEntry) (cache : TemplateCache) : Prop :=
  cache.entries = entries ∨ cache.lastRefresh = 0

theorem templateScan_at (now loadedAt : Int) {loaded : Bool} {files : List TemplateFile} :
    templateScan { world with now, loadedAt } entries loaded files =
      templateScan world entries loaded files := by
  induction files generalizing entries loaded with
  | nil => rfl
  | cons file rest ih => simp only [templateScan, ih]

theorem scanned_at (now loadedAt : Int) : scanned { world with now, loadedAt } = scanned world := by
  unfold scanned
  simp only [templateScan_at]

theorem entries_reload (world : TemplateWorld) (cache : TemplateCache) :
    (templateCacheReloadLocked world cache).1.entries = scanned world := by
  unfold templateCacheReloadLocked scanned
  simp only [templateCacheCleanupLocked]
  cases world.opendir with
  | none => rfl
  | some files =>
    cases scan : templateScan world [] false files with
    | none => simp only [scan]
    | some result => simp only [scan]

/-- A read finds what the directory holds, from the cache or not. -/
theorem readTemplateFile_settled (settled : Settled (scanned world) cache) (name : Bytes) :
    (readTemplateFile world cache name).1.entries = scanned world ∧
      (readTemplateFile world cache name).2 = textOf (scanned world) name := by
  have refreshed : (templateCacheRefreshLocked world cache).1.entries = scanned world ∧
      ((templateCacheRefreshLocked world cache).2 = false → scanned world = []) := by
    unfold templateCacheRefreshLocked
    split
    · rename_i fresh
      have filled : cache.lastRefresh ≠ 0 := (of_decide_eq_true fresh).1
      exact ⟨settled.resolve_right filled, fun failed => by cases failed⟩
    · refine ⟨entries_reload world cache, fun failed => ?_⟩
      rw [← entries_reload world cache]
      exact TemplateCacheProofs.empty_of_failed failed
  unfold readTemplateFile
  generalize templateCacheRefreshLocked world cache = result at refreshed
  obtain ⟨cache', succeeded⟩ := result
  obtain ⟨same, nothing⟩ := refreshed
  cases succeeded with
  | true =>
    simp only [if_true]
    exact ⟨same, by rw [same]; rfl⟩
  | false =>
    refine ⟨same, ?_⟩
    rw [nothing rfl]
    rfl

/-! ## One request by itself -/

/-- The handler without the cache of pages, over an empty cache of files. -/
def aloneReply (world : TemplateWorld) (req : ViewRequest) : ViewReply :=
  match findViewRoute req.method req.url with
  | none => .error 404 (lit "Not Found")
  | some view =>
    match templateRenderWithData (fun _ => world) (fun _ => true) { entries := [], lastRefresh := 0 }
        (viewData view) with
    | (_, some output) => .page output
    | (cache, none) =>
      match (templateRender (fun _ => world) (fun _ => true) cache (some view.page)).2 with
      | some output => .page output
      | none => .error 500 (lit "Template rendering failed")

/-- The page from these files. -/
def pageFrom (entries : List TemplateEntry) (data : TemplateData) : Option Bytes :=
  match textOf entries (lit "base.html"), data.pageContent.bind (textOf entries) with
  | some baseTemplate, some pageContent =>
    composeLayout (fun _ => true) (data.title.getD [])
      { baseTemplate, pageContent
        extraHead := data.extraHeadFile.bind (textOf entries)
        extraJs := data.extraJsFile.bind (textOf entries) }
  | _, _ => none

/-- The reply from these files. -/
def replyFrom (entries : List TemplateEntry) (req : ViewRequest) : ViewReply :=
  match findViewRoute req.method req.url with
  | none => .error 404 (lit "Not Found")
  | some view =>
    match pageFrom entries (viewData view) with
    | some output => .page output
    | none =>
      match pageFrom entries (plainData view) with
      | some output => .page output
      | none => .error 500 (lit "Template rendering failed")

theorem loadTemplateComponent_settled (settled : Settled (scanned world) cache) (file : Option Bytes) :
    Settled (scanned world) (loadTemplateComponent world cache file).1 ∧
      (loadTemplateComponent world cache file).2 = file.bind (textOf (scanned world)) := by
  cases file with
  | none => exact ⟨settled, rfl⟩
  | some filename =>
    obtain ⟨same, text⟩ := readTemplateFile_settled settled filename
    exact ⟨.inl same, text⟩

/-- One rendering, from the first file to the page. -/
theorem templateRenderWithData_settled (settled : Settled (scanned world) cache)
    (data : TemplateData) {title page : Bytes}
    (titled : data.title = some title) (paged : data.pageContent = some page) :
    Settled (scanned world) (templateRenderWithData (fun _ => world) (fun _ => true) cache data).1 ∧
      (templateRenderWithData (fun _ => world) (fun _ => true) cache data).2 =
        pageFrom (scanned world) data := by
  unfold templateRenderWithData loadLayoutFragments pageFrom
  rw [titled, paged]
  simp only [Option.bind_some, Option.getD_some]
  obtain ⟨same, text⟩ := readTemplateFile_settled settled (lit "base.html")
  rw [← text]
  generalize readTemplateFile world cache (lit "base.html") = result at same
  obtain ⟨cache, base⟩ := result
  cases base with
  | none => exact ⟨.inl same, rfl⟩
  | some base =>
    simp only
    obtain ⟨same, text⟩ := readTemplateFile_settled (show Settled (scanned world) cache from .inl same) page
    rw [← text]
    generalize readTemplateFile world cache page = result at same
    obtain ⟨cache, content⟩ := result
    cases content with
    | none => exact ⟨.inl same, rfl⟩
    | some content =>
      simp only
      have settled : Settled (scanned world) cache := .inl same
      obtain ⟨settled, head⟩ := loadTemplateComponent_settled settled data.extraHeadFile
      rw [← head]
      generalize loadTemplateComponent world cache data.extraHeadFile = result at settled
      obtain ⟨cache, extraHead⟩ := result
      obtain ⟨settled, js⟩ := loadTemplateComponent_settled settled data.extraJsFile
      exact ⟨settled, by rw [← js]⟩

theorem aloneReply_eq (world : TemplateWorld) (req : ViewRequest) :
    aloneReply world req = replyFrom (scanned world) req := by
  unfold aloneReply replyFrom
  split
  · rfl
  · rename_i view _
    have empty : Settled (scanned world) { entries := [], lastRefresh := 0 } := .inr rfl
    obtain ⟨settled, page⟩ := templateRenderWithData_settled empty (viewData view) rfl rfl
    rw [← page]
    generalize templateRenderWithData (fun _ => world) (fun _ => true) _ (viewData view) = result
      at settled
    obtain ⟨cache, output⟩ := result
    cases output with
    | some output => rfl
    | none =>
      have plain := (templateRenderWithData_settled settled (plainData view) rfl rfl).2
      simp only
      rw [← plain]
      rfl

/-! ## The workers -/

/-- The directory is found as it was at the start, copies are made, and the routes
call the handler for `GET` only. -/
def Steady (start : TemplateWorld) (_ : ViewServer) : ViewAct → Prop
  | .enter _ req => req.method = lit "GET"
  | .lookup _ allocated => allocated = true
  | .read _ opendir allocated => opendir = start.opendir ∧ allocated = true
  | .compose _ allocates => allocates = fun _ => true
  | .tick _ | .refresh _ | .store _ _ | .reply _ _ => True

/-- What a worker holds is on the way to the reply of its request. -/
def StageSteady (entries : List TemplateEntry) (req : ViewRequest) : ViewStage → Prop
  | .entered => True
  | .rendering cacheEntry view plain data reads
  | .refreshing cacheEntry view plain data reads _ =>
    findViewRoute req.method req.url = some view ∧
      (cacheEntry = none ∨ cacheEntry = some req.url) ∧
      data = (if plain then plainData view else viewData view) ∧
      (plain = true → pageFrom entries (viewData view) = none) ∧
      reads = ((layoutFiles data).take reads.length).map (·.bind (textOf entries))
  | .rendered cacheEntry output =>
    cacheEntry = req.url ∧ replyFrom entries req = .page output
  | .replying reply => replyFrom entries req = reply

/-- A rendering that comes to nothing leads on as the handler does. -/
theorem stageSteady_failed (found : findViewRoute req.method req.url = some view)
    (which : cacheEntry = none ∨ cacheEntry = some req.url)
    (before : plain = true → pageFrom entries (viewData view) = none)
    (failed : pageFrom entries (if plain then plainData view else viewData view) = none) :
    StageSteady entries req (renderFailed cacheEntry view plain) := by
  unfold renderFailed
  cases plain with
  | false => exact ⟨found, which, rfl, fun _ => failed, rfl⟩
  | true =>
    simp only [if_true] at failed ⊢
    simp only [StageSteady, replyFrom, found, before rfl, failed]

theorem stageSteady_lookedUp {hot : Bytes → HotViewEntry} {now : Int} (get : req.method = lit "GET")
    (ok : ∀ path body, (hot path).body = some body → replyFrom entries ⟨lit "GET", path⟩ = .page body) :
    StageSteady entries req (viewLookedUp hot req now true) := by
  unfold viewLookedUp
  rcases hotViewLookup_cases hot req.url now with ⟨body, hit, stored, _⟩ | ⟨entry, missed, which⟩
  · rw [hit]
    have reply := ok req.url body stored
    rw [← get] at reply
    exact reply
  · rw [missed]
    simp only
    split
    · rename_i missing
      simp only [StageSteady, replyFrom, missing]
    · rename_i view found
      exact ⟨found, which, rfl, fun plain => (by cases plain), rfl⟩

theorem stageSteady_fileRead {file : Option Bytes}
    (ok : StageSteady entries req (.rendering cacheEntry view plain data reads))
    (next : (layoutFiles data)[reads.length]? = some file) :
    StageSteady entries req
      (fileRead cacheEntry view plain data reads (file.bind (textOf entries))) := by
  obtain ⟨found, which, whole, before, same⟩ := ok
  unfold fileRead
  split
  · rename_i missing
    obtain ⟨needed, nothing⟩ := missing
    refine stageSteady_failed found which before ?_
    rw [← whole]
    -- the base or the page is missing
    unfold pageFrom
    split
    · rename_i base content hasBase hasPage
      have cases' : reads.length = 0 ∨ reads.length = 1 := by omega
      rcases cases' with first | second
      · rw [first] at next
        cases next
        rw [Option.bind_some, hasBase] at nothing
        cases nothing
      · rw [second] at next
        cases next
        rw [hasPage] at nothing
        cases nothing
    · rfl
  · refine ⟨found, which, whole, before, ?_⟩
    rw [List.length_append, List.length_singleton, List.take_add_one, next, List.map_append, ← same]
    rfl

theorem stageSteady_composed
    (ok : StageSteady entries req (.rendering cacheEntry view plain data reads))
    (composed : pageComposed cacheEntry view plain data reads (fun _ => true) = some stage) :
    StageSteady entries req stage := by
  obtain ⟨found, which, whole, before, same⟩ := ok
  unfold pageComposed at composed
  split at composed
  · rename_i base content head js
    simp only [layoutFiles, List.length_cons, List.length_nil, List.take_succ_cons, List.take_zero,
      List.map_cons, List.map_nil, List.cons.injEq, and_true, Option.bind_some] at same
    obtain ⟨hasBase, hasPage, hasHead, hasJs⟩ := same
    have page : pageFrom entries data = composeLayout (fun _ => true) (data.title.getD [])
        { baseTemplate := base, pageContent := content, extraHead := head, extraJs := js } := by
      unfold pageFrom
      rw [← hasBase, ← hasPage, hasHead, hasJs]
    rw [← page] at composed
    split at composed
    · rename_i failed
      cases composed
      rw [whole] at failed
      exact stageSteady_failed found which before failed
    · rename_i output made
      have reply : replyFrom entries req = .page output := by
        unfold replyFrom
        rw [whole] at made
        cases plain with
        | false =>
          simp only [Bool.false_eq_true, if_false] at made
          simp only [found, made]
        | true =>
          simp only [if_true] at made
          simp only [found, before rfl, made]
      split at composed
      · cases composed
        exact reply
      · rename_i entry
        cases composed
        rcases which with nothing | entered
        · cases nothing
        · exact ⟨Option.some.inj entered, reply⟩
  · cases composed

/-- In every state of a steady run. -/
structure SteadyInv (start : TemplateWorld) (s : ViewServer) : Prop where
  templates : Settled (scanned start) s.templates
  hot : ∀ path body, (s.hot path).body = some body →
    replyFrom (scanned start) ⟨lit "GET", path⟩ = .page body
  calls : ∀ w call, s.calls w = some call → call.req.method = lit "GET" ∧
    StageSteady (scanned start) call.req call.stage
  answers : ∀ answer ∈ s.answers, replyFrom (scanned start) answer.req = answer.reply

theorem SteadyInv.move {next : Option ViewCall} (inv : SteadyInv start s)
    (calls : t.calls = Function.update s.calls w next) (templates : Settled (scanned start) t.templates)
    (hot : t.hot = s.hot) (answers : t.answers = s.answers)
    (ok : ∀ call, next = some call → call.req.method = lit "GET" ∧
      StageSteady (scanned start) call.req call.stage) : SteadyInv start t := by
  refine ⟨templates, by rw [hot]; exact inv.hot, fun w' call holds => ?_, by
    rw [answers]; exact inv.answers⟩
  rw [calls] at holds
  rcases Transition.update_cases holds with ⟨rfl, now⟩ | ⟨_, before⟩
  · exact ok call now
  · exact inv.calls w' call before

theorem SteadyInv.goOn (inv : SteadyInv start s) (holds : s.calls w = some call)
    (ok : StageSteady (scanned start) call.req stage) : SteadyInv start (s.setStage w call stage) := by
  refine inv.move rfl inv.templates rfl rfl ?_
  rintro _ ⟨⟩
  exact ⟨(inv.calls w call holds).1, ok⟩

theorem steadyInv_start (start : TemplateWorld) : SteadyInv start (viewStart start) :=
  ⟨.inl (entries_reload start _), fun _ _ stored => (by cases stored),
    fun _ _ holds => (by cases holds), fun _ member => (by cases member)⟩

theorem steadyInv_step (inv : SteadyInv start s) (steady : Steady start s act)
    (taken : viewStep start.templatesDir s act = some t) : SteadyInv start t := by
  cases act with
  | tick seconds =>
    cases taken
    exact ⟨inv.templates, inv.hot, inv.calls, inv.answers⟩
  | enter w req =>
    simp only [viewStep] at taken
    split at taken <;> cases taken
    refine inv.move rfl inv.templates rfl rfl ?_
    rintro _ ⟨⟩
    exact ⟨steady, trivial⟩
  | lookup w allocated =>
    cases steady
    simp only [viewStep] at taken
    split at taken
    · rename_i call holds
      split at taken <;> cases taken
      exact inv.goOn holds (stageSteady_lookedUp (inv.calls w call holds).1 inv.hot)
    · cases taken
  | refresh w =>
    simp only [viewStep] at taken
    split at taken
    · rename_i call holds
      split at taken
      · rename_i cacheEntry view plain data reads rendering
        obtain ⟨get, ok⟩ := inv.calls w call holds
        rw [rendering] at ok
        split at taken <;> cases taken
        refine inv.move rfl inv.templates rfl rfl ?_
        rintro _ ⟨⟩
        exact ⟨get, ok⟩
      · cases taken
    · cases taken
  | read w opendir allocated =>
    obtain ⟨rfl, rfl⟩ := steady
    simp only [viewStep, if_true] at taken
    split at taken
    · rename_i call holds
      obtain ⟨get, ok⟩ := inv.calls w call holds
      split at taken
      · rename_i cacheEntry view plain data reads rendering
        rw [rendering] at ok
        split at taken
        · rename_i next
          cases taken
          exact inv.goOn holds (stageSteady_fileRead ok next)
        · cases taken
      · rename_i cacheEntry view plain data reads refreshNow refreshing
        rw [refreshing] at ok
        split at taken
        · cases taken
        · rename_i filename next
          cases taken
          have same : scanned { start with now := refreshNow, loadedAt := s.clock } = scanned start :=
            scanned_at refreshNow s.clock
          have settled : Settled (scanned { start with now := refreshNow, loadedAt := s.clock })
              s.templates := by
            rw [same]
            exact inv.templates
          obtain ⟨entries, text⟩ := readTemplateFile_settled settled filename
          refine inv.move rfl (.inl (entries.trans same)) rfl rfl ?_
          rintro _ ⟨⟩
          refine ⟨get, ?_⟩
          rw [same] at text
          simp only [text]
          exact stageSteady_fileRead ok (Option.join_eq_some_iff.mp next)
      · cases taken
    · cases taken
  | compose w allocates =>
    cases steady
    simp only [viewStep] at taken
    split at taken
    · rename_i call holds
      split at taken
      · rename_i cacheEntry view plain data reads rendering
        obtain ⟨stage, composed, rfl⟩ := Option.map_eq_some_iff.mp taken
        obtain ⟨_, ok⟩ := inv.calls w call holds
        rw [rendering] at ok
        exact inv.goOn holds (stageSteady_composed ok composed)
      · cases taken
    · cases taken
  | store w allocated =>
    simp only [viewStep] at taken
    split at taken
    · rename_i call holds
      split at taken
      · rename_i entry output rendered
        cases taken
        obtain ⟨get, ok⟩ := inv.calls w call holds
        rw [rendered] at ok
        obtain ⟨rfl, reply⟩ := ok
        refine SteadyInv.goOn ⟨inv.templates, fun path body stored => ?_, inv.calls, inv.answers⟩ holds
          reply
        cases allocated with
        | false => exact inv.hot path body stored
        | true =>
          simp only [if_true] at stored
          by_cases same : path = call.req.url
          · subst same
            rw [Function.update_self] at stored
            cases stored
            rw [← get]
            exact reply
          · rw [Function.update_of_ne same] at stored
            exact inv.hot path body stored
      · cases taken
    · cases taken
  | reply w created =>
    simp only [viewStep] at taken
    split at taken
    · rename_i call holds
      split at taken
      · rename_i reply replying
        cases taken
        obtain ⟨_, ok⟩ := inv.calls w call holds
        rw [replying] at ok
        have answered : SteadyInv start { s with answers := if created then
            s.answers ++ [{ req := call.req, now := call.now, reply }] else s.answers } := by
          refine ⟨inv.templates, inv.hot, inv.calls, fun answer member => ?_⟩
          cases created with
          | false => exact inv.answers answer member
          | true =>
            rcases List.mem_append.mp member with old | new
            · exact inv.answers answer old
            · rw [List.mem_singleton.mp new]
              exact ok
        exact answered.move rfl inv.templates rfl rfl fun _ nothing => by cases nothing
      · cases taken
    · cases taken

/-- In every run in which the directory stays and memory suffices: each request is
answered as by a handler that runs by itself, keeps no pages and reads every file
from the directory. -/
theorem caches_are_not_seen
    (reached : Transition.Reach (viewStep start.templatesDir) (Steady start) (viewStart start) s) :
    ∀ answer ∈ s.answers, answer.reply = aloneReply start answer.req := by
  have inv : SteadyInv start s := reached.invariant (steadyInv_start start)
    fun _ _ _ inv steady taken => steadyInv_step inv steady taken
  intro answer member
  rw [aloneReply_eq, inv.answers answer member]

/-- Two workers render the page at the same time and both store it; a third one is
served from the cache. -/
def renderedTwice : List ViewAct :=
  let opendir := some smallDirectory
  [.enter 0 ⟨lit "GET", lit "/docs"⟩, .enter 1 ⟨lit "GET", lit "/docs"⟩, .lookup 0 true,
    .lookup 1 true, .refresh 0, .read 0 opendir true, .refresh 1, .read 1 opendir true, .refresh 0,
    .read 0 opendir true, .refresh 0, .read 0 opendir true, .refresh 0, .read 0 opendir true,
    .compose 0 (fun _ => true), .store 0 true, .refresh 1, .read 1 opendir true, .refresh 1,
    .read 1 opendir true, .refresh 1, .read 1 opendir true, .compose 1 (fun _ => true), .store 1 true,
    .enter 2 ⟨lit "GET", lit "/docs"⟩, .lookup 2 true, .reply 2 true]

theorem caches_are_not_seen_thrice :
    ∃ s : ViewServer, ∃ answer ∈ s.answers,
      answer.reply = aloneReply ⟨lit "templates", some smallDirectory, 100, 100⟩ answer.req ∧
      answer.reply = .page (lit "MiniWeb - Documentation: read me") := by
  let start : TemplateWorld := ⟨lit "templates", some smallDirectory, 100, 100⟩
  have steady : ∀ act ∈ renderedTwice, ∀ s, Steady start s act := by
    intro act member s
    simp only [renderedTwice, List.mem_cons, List.not_mem_nil, or_false] at member
    rcases member with rfl | rfl | rfl | rfl | rfl | rfl | rfl | rfl | rfl | rfl | rfl | rfl | rfl |
      rfl | rfl | rfl | rfl | rfl | rfl | rfl | rfl | rfl | rfl | rfl | rfl | rfl | rfl
    all_goals first | exact ⟨rfl, rfl⟩ | exact rfl | trivial
  have ran : (Transition.run (viewStep start.templatesDir) (viewStart start) renderedTwice).map
      (fun s => s.answers[0]?) = some (some ⟨⟨lit "GET", lit "/docs"⟩, 100,
        .page (lit "MiniWeb - Documentation: read me")⟩) := by decide +kernel
  obtain ⟨s, reached, seen⟩ := Transition.exists_reach_of_allowed steady ran
  have member := List.mem_of_getElem? seen
  exact ⟨s, _, member, caches_are_not_seen reached _ member, rfl⟩

end Miniweb.ViewTransparency
