import Miniweb.Render.TemplateCache

/-! `src/render/template_render.c`: how a page is put together from the base template and
the fragments. Each call of `replace_single` allocates once; `allocates` answers for the
calls in their order, the `strdup` in front of them being the first. -/
namespace Miniweb.Render

open Miniweb.Lib.CString

/-- `struct placeholder_pair`; a value may be NULL. -/
structure PlaceholderPair where
  needle : Bytes
  value : Option Bytes
  deriving DecidableEq, Repr

/-- `replace_single`; `none` for NULL. -/
def replaceSingle (allocates : Bool) (str needle value : Bytes) : Option Bytes :=
  match strstr needle str with
  | none => if allocates then some str else none
  | some pos =>
    if allocates then some (str.take pos ++ value ++ str.drop (pos + needle.length)) else none

/-- The loop of `replace_placeholders` from the `i`th pair on. -/
def replacePairs (allocates : Nat → Bool) : Nat → Bytes → List PlaceholderPair → Option Bytes
  | _, result, [] => some result
  | i, result, pair :: pairs =>
    match replaceSingle (allocates (i + 1)) result pair.needle (pair.value.getD []) with
    | none => none
    | some next => replacePairs allocates (i + 1) next pairs

/-- `replace_placeholders`. -/
def replacePlaceholders (allocates : Nat → Bool) (templateStr : Bytes)
    (pairs : List PlaceholderPair) : Option Bytes :=
  if allocates 0 then replacePairs allocates 0 templateStr pairs else none

/-- `replace_all`. -/
def replaceAll (allocates : Nat → Bool) (templateStr : Bytes)
    (title pageContent extraHead extraJs : Option Bytes) : Option Bytes :=
  replacePlaceholders allocates templateStr
    [{ needle := lit "\x7b\x7btitle\x7d\x7d", value := title },
      { needle := lit "\x7b\x7bpage_content\x7d\x7d", value := pageContent },
      { needle := lit "\x7b\x7bextra_head\x7d\x7d", value := extraHead },
      { needle := lit "\x7b\x7bextra_js\x7d\x7d", value := extraJs }]

/-- `struct template_data`. -/
structure TemplateData where
  title : Option Bytes
  pageContent : Option Bytes
  extraHeadFile : Option Bytes
  extraJsFile : Option Bytes
  deriving DecidableEq, Repr

/-- `load_template_component`: the content it leaves. -/
def loadTemplateComponent (world : TemplateWorld) (cache : TemplateCache) (filename : Option Bytes) :
    TemplateCache × Option Bytes :=
  match filename with
  | none => (cache, none)
  | some filename => readTemplateFile world cache filename

/-- What `load_layout_fragments` reads. -/
structure LayoutFragments where
  baseTemplate : Bytes
  pageContent : Bytes
  extraHead : Option Bytes
  extraJs : Option Bytes
  deriving DecidableEq, Repr

/-- `load_layout_fragments`: each file is read in a world of its own. -/
def loadLayoutFragments (worlds : Fin 4 → TemplateWorld) (cache : TemplateCache)
    (pageContent : Bytes) (data : TemplateData) : TemplateCache × Option LayoutFragments :=
  match readTemplateFile (worlds 0) cache (lit "base.html") with
  | (cache, none) => (cache, none)
  | (cache, some baseTemplate) =>
    match readTemplateFile (worlds 1) cache pageContent with
    | (cache, none) => (cache, none)
    | (cache, some pageContent) =>
      let (cache, extraHead) := loadTemplateComponent (worlds 2) cache data.extraHeadFile
      let (cache, extraJs) := loadTemplateComponent (worlds 3) cache data.extraJsFile
      (cache, some { baseTemplate, pageContent, extraHead, extraJs })

/-- `compose_layout`. -/
def composeLayout (allocates : Nat → Bool) (title : Bytes) (fragments : LayoutFragments) :
    Option Bytes :=
  replaceAll allocates fragments.baseTemplate (some title) (some fragments.pageContent)
    (some (fragments.extraHead.getD [])) (some (fragments.extraJs.getD []))

/-- `template_render_with_data`: the page, `none` for its -1. -/
def templateRenderWithData (worlds : Fin 4 → TemplateWorld) (allocates : Nat → Bool)
    (cache : TemplateCache) (data : TemplateData) : TemplateCache × Option Bytes :=
  match data.title, data.pageContent with
  | some title, some pageContent =>
    match loadLayoutFragments worlds cache pageContent data with
    | (cache, none) => (cache, none)
    | (cache, some fragments) => (cache, composeLayout allocates title fragments)
  | _, _ => (cache, none)

/-- `template_render`. -/
def templateRender (worlds : Fin 4 → TemplateWorld) (allocates : Nat → Bool) (cache : TemplateCache)
    (page : Option Bytes) : TemplateCache × Option Bytes :=
  templateRenderWithData worlds allocates cache
    { title := some (lit "MiniWeb"), pageContent := page, extraHeadFile := none, extraJsFile := none }

end Miniweb.Render
