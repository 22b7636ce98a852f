import Miniweb.Lib.Template
import Miniweb.Render.TemplateRender

/-! What becomes of the base template. `replace_all` replaces one placeholder after another,
and looks for each in all that it has put together so far. Bytes are traced to the text they
come from, so that a byte that was taken out and one like it that was put in can be told
apart. -/
namespace Miniweb.TemplateRenderProofs

open Miniweb.Lib.CString Miniweb.Lib.Template Miniweb.Render

/-- The placeholders of the base template. -/
inductive Placeholder where
  | title
  | pageContent
  | extraHead
  | extraJs
  deriving DecidableEq, Repr

/-- The placeholders in the order of `replace_all`, with the texts that stand for them. -/
def marks : Marks Placeholder where
  names := [.title, .pageContent, .extraHead, .extraJs]
  needle
    | .title => lit "\x7b\x7btitle\x7d\x7d"
    | .pageContent => lit "\x7b\x7bpage_content\x7d\x7d"
    | .extraHead => lit "\x7b\x7bextra_head\x7d\x7d"
    | .extraJs => lit "\x7b\x7bextra_js\x7d\x7d"
  nodup := by decide
  nonempty n := by cases n <;> decide
  apart := by decide +kernel

/-- The texts to be inserted; NULL stands for the empty one. -/
abbrev Texts := Placeholder → Option Bytes

variable {base : Bytes} {texts : Texts} {order : List Placeholder}

def pair (texts : Texts) (n : Placeholder) : PlaceholderPair where
  needle := marks.needle n
  value := texts n

def value (texts : Texts) (n : Placeholder) : Bytes := (texts n).getD []

/-- A byte with the text it comes from, the base or an inserted one, and its position there. -/
structure Traced where
  byte : UInt8
  origin : Option Placeholder
  index : Nat
  deriving DecidableEq, Repr

def trace (origin : Option Placeholder) (s : Bytes) : List Traced :=
  s.mapIdx fun index byte => { byte, origin, index }

/-- The replacements of an order, with every byte traced. -/
def tracedPage (base : Bytes) (texts : Texts) (order : List Placeholder) : List Traced :=
  marks.replaceEach Traced.byte (fun n => trace (some n) (value texts n)) (trace none base) order

/-- The base with the first occurrence of each placeholder replaced, all at once. -/
def filled (base : Bytes) (texts : Texts) : Bytes := marks.fill id (value texts) base marks.names

/-- The same, with every byte traced. -/
def tracedFilled (base : Bytes) (texts : Texts) : List Traced :=
  marks.fill Traced.byte (fun n => trace (some n) (value texts n)) (trace none base) marks.names

/-- The placeholders are replaced as if all at once: in the page of `replace_all`, in every
order of the four, and every byte of it comes from where it should. -/
structure FillsAtOnce (base : Bytes) (texts : Texts) : Prop where
  page : ∀ allocates page,
    replaceAll allocates base (texts .title) (texts .pageContent) (texts .extraHead)
      (texts .extraJs) = some page → page = filled base texts
  orders : ∀ order : List Placeholder, order.Perm marks.names → ∀ allocates page,
    replacePlaceholders allocates base (order.map (pair texts)) = some page →
      page = filled base texts
  origins : ∀ order : List Placeholder, order.Perm marks.names → tracedPage base texts order = tracedFilled base texts

/-! ## Traces -/

theorem map_trace (origin : Option Placeholder) (s : Bytes) :
    (trace origin s).map Traced.byte = s := by
  rw [trace]
  apply List.ext_getElem
  · simp
  · simp

theorem nodup_trace (origin : Option Placeholder) (s : Bytes) : (trace origin s).Nodup := by
  rw [List.nodup_iff_injective_getElem]
  intro i j same
  simp only [trace, List.getElem_mapIdx, Traced.mk.injEq] at same
  exact Fin.ext same.2.2

theorem origin_of_mem {origin : Option Placeholder} {s : Bytes} {x : Traced}
    (member : x ∈ trace origin s) : x.origin = origin := by
  obtain ⟨_, _, rfl⟩ := List.mem_mapIdx.mp member
  rfl

/-- No two bytes of the texts have the same trace. -/
theorem traces_distinct (base : Bytes) (texts : Texts) :
    (trace none base ++ marks.names.flatMap fun n => trace (some n) (value texts n)).Nodup := by
  rw [List.nodup_append, List.nodup_flatMap]
  refine ⟨nodup_trace _ _, ⟨fun n _ => nodup_trace _ _, ?_⟩, ?_⟩
  · refine marks.nodup.imp fun {m n} different x member member' => different ?_
    exact Option.some.inj ((origin_of_mem member).symm.trans (origin_of_mem member'))
  · rintro x member y member' rfl
    obtain ⟨n, _, member'⟩ := List.mem_flatMap.mp member'
    cases (origin_of_mem member).symm.trans (origin_of_mem member')

/-! ## The page -/

theorem replaceSingle_eq (allocates : Bool) (str needle value : Bytes) :
    replaceSingle allocates str needle value =
      if allocates then some (replaceFirst id str needle value) else none := by
  rw [replaceSingle, replaceFirst, List.map_id]
  cases strstr needle str with
  | none => rfl
  | some pos => rfl

/-- Where the allocations succeed, the page is what the replacements make of the base. -/
theorem replacePairs_eq {allocates : Nat → Bool} {i : Nat} {result page : Bytes}
    (made : replacePairs allocates i result (order.map (pair texts)) = some page) :
    page = marks.replaceEach id (value texts) result order := by
  induction order generalizing i result with
  | nil =>
    cases made
    rfl
  | cons n order ih =>
    simp only [List.map_cons, replacePairs, replaceSingle_eq] at made
    split at made
    · cases made
    · rename_i next replaced
      split at replaced
      · cases replaced
        exact ih made
      · cases replaced

theorem replacePlaceholders_eq {allocates : Nat → Bool} {page : Bytes}
    (made : replacePlaceholders allocates base (order.map (pair texts)) = some page) :
    page = (tracedPage base texts order).map Traced.byte := by
  rw [replacePlaceholders] at made
  split at made
  · rw [replacePairs_eq made, tracedPage, Marks.map_replaceEach, map_trace]
    simp only [map_trace]
  · cases made

theorem map_tracedFilled : (tracedFilled base texts).map Traced.byte = filled base texts := by
  rw [tracedFilled, Marks.map_fill, map_trace]
  simp only [map_trace]
  rfl

theorem fills_iff (base : Bytes) (texts : Texts) :
    FillsAtOnce base texts ↔ marks.Undisturbed id (value texts) base := by
  have bytes : marks.Undisturbed Traced.byte (fun n => trace (some n) (value texts n)) (trace none base) ↔
      marks.Undisturbed id (value texts) base := by
    rw [Marks.undisturbed_map, map_trace]
    simp only [map_trace]
  rw [← bytes]
  constructor
  · intro atOnce
    exact Marks.undisturbed_of_replaceEach (traces_distinct base texts) atOnce.origins
  · intro undisturbed
    have origins (order : List Placeholder) (perm : order.Perm marks.names) :
        tracedPage base texts order = tracedFilled base texts :=
      undisturbed.replaceEach_eq perm
    have orders (order : List Placeholder) (perm : order.Perm marks.names) (allocates : Nat → Bool)
        (page : Bytes)
        (made : replacePlaceholders allocates base (order.map (pair texts)) = some page) :
        page = filled base texts := by
      rw [replacePlaceholders_eq made, origins order perm, map_tracedFilled]
    exact ⟨fun allocates page made => orders marks.names (List.Perm.refl _) allocates page made,
      orders, origins⟩

/-- Exactly when the placeholders are replaced as if all at once: when, with any of them
filled, each of the others occurs first where the base has it first. -/
theorem fillsAtOnce_iff (base : Bytes) (texts : Texts) :
    FillsAtOnce base texts ↔
      ∀ done ∈ marks.names.sublists, ∀ n ∈ marks.names, n ∉ done →
        strstr (marks.needle n) (marks.fill id (value texts) base done) =
          (strstr (marks.needle n) base).map (marks.place id (value texts) base done) := by
  simpa only [Marks.Undisturbed, Marks.OwnFirst, List.map_id] using fills_iff base texts

/-- The texts `compose_layout` inserts. -/
def layoutTexts (title : Bytes) (fragments : LayoutFragments) : Texts
  | .title => some title
  | .pageContent => some fragments.pageContent
  | .extraHead => some (fragments.extraHead.getD [])
  | .extraJs => some (fragments.extraJs.getD [])

/-- A rendered page is the base template that was read, filled at once with the title and the
fragments that were read, unless these disturb each other. -/
theorem rendered_page {worlds : Fin 4 → TemplateWorld} {allocates : Nat → Bool}
    {cache : TemplateCache} {data : TemplateData} {page : Bytes}
    (rendered : (templateRenderWithData worlds allocates cache data).2 = some page) :
    ∃ title pageContent fragments, data.title = some title ∧ data.pageContent = some pageContent ∧
      (loadLayoutFragments worlds cache pageContent data).2 = some fragments ∧
      (marks.Undisturbed id (value (layoutTexts title fragments)) fragments.baseTemplate →
        page = filled fragments.baseTemplate (layoutTexts title fragments)) := by
  simp only [templateRenderWithData] at rendered
  split at rendered
  · rename_i title pageContent hasTitle hasContent
    split at rendered
    · cases rendered
    · rename_i cache' fragments loaded
      refine ⟨title, pageContent, fragments, hasTitle, hasContent, by rw [loaded], ?_⟩
      intro undisturbed
      have atOnce := (fills_iff fragments.baseTemplate (layoutTexts title fragments)).mpr undisturbed
      exact atOnce.page allocates page rendered
  · cases rendered

/-- The texts of a page: its title and its content. -/
def titled (title content : String) : Texts
  | .title => some (lit title)
  | .pageContent => some (lit content)
  | .extraHead | .extraJs => none

example : marks.Undisturbed id (value (titled "Home" "<p>\x7b\x7btitle\x7d\x7d</p>"))
    (lit "<h1>\x7b\x7btitle\x7d\x7d</h1>\x7b\x7bpage_content\x7d\x7d") := by
  decide +kernel

/-- A title with a placeholder in it gets the content, and the base's own placeholder stays. -/
theorem title_filled :
    replaceAll (fun _ => true) (lit "\x7b\x7btitle\x7d\x7d|\x7b\x7bpage_content\x7d\x7d")
        (some (lit "\x7b\x7bpage_content\x7d\x7d")) (some (lit "body")) none none =
      some (lit "body|\x7b\x7bpage_content\x7d\x7d") ∧
    filled (lit "\x7b\x7btitle\x7d\x7d|\x7b\x7bpage_content\x7d\x7d")
        (titled "\x7b\x7bpage_content\x7d\x7d" "body") =
      lit "\x7b\x7bpage_content\x7d\x7d|body" ∧
    ¬ FillsAtOnce (lit "\x7b\x7btitle\x7d\x7d|\x7b\x7bpage_content\x7d\x7d")
        (titled "\x7b\x7bpage_content\x7d\x7d" "body") := by
  refine ⟨by decide +kernel, by decide +kernel, fun atOnce => ?_⟩
  have page := atOnce.page (fun _ => true) (lit "body|\x7b\x7bpage_content\x7d\x7d") (by decide +kernel)
  exact absurd page (by decide +kernel)

end Miniweb.TemplateRenderProofs
