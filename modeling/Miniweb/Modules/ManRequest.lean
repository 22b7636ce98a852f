import Miniweb.Modules.ManQuery
import Miniweb.Modules.ManRender

/-! `src/modules/man/man_render.c`: what `man_render_handler` makes of a URL, from its
parts to the key and the paths under which the page is cached. -/
namespace Miniweb.Modules

open Miniweb.Lib.CString

/-- The parts of a request that `man_render_handler` goes on with. -/
@[ext]
structure ManRequestParts where
  area : Bytes
  sect : Bytes
  page : Bytes
  format : Bytes
  deriving DecidableEq, Repr

/-- The formats the handler compares with. -/
def manFormats : List Bytes := [lit "html", lit "pdf", lit "ps", lit "md", lit "txt"]

/-- How the third token is read: the section, which it may replace, the page and the
format. -/
def manParsePageToken (sect token : Bytes) : Bytes × Bytes × Bytes :=
  match strrchr 46 token with
  | none => (sect, strlcpy 64 token, lit "html")
  | some lastDot =>
    if lastDot = 0 then (sect, strlcpy 64 token, lit "html")
    else
      let possibleFormat := token.drop (lastDot + 1)
      if possibleFormat ∈ manFormats then
        (sect, strlcpy 64 (token.take lastDot), strlcpy 16 possibleFormat)
      else if manIsValidSection possibleFormat then
        (strlcpy 16 possibleFormat, strlcpy 64 (token.take lastDot), lit "html")
      else (sect, strlcpy 64 token, lit "html")

/-- What the handler answers with status 400. -/
inductive ManRefusal where
  | invalidUrl
  | missing
  | unsupportedFormat
  | invalid
  deriving DecidableEq, Repr

/-- The text of the answer. -/
def ManRefusal.text : ManRefusal → Bytes
  | .invalidUrl => lit "Invalid URL"
  | .missing => lit "Missing section or page name"
  | .unsupportedFormat => lit "Unsupported format"
  | .invalid => lit "Invalid section or page name"

/-- `path_copy` up to the query string. -/
def manPathCopy (url : Bytes) : Bytes := (strlcpy 256 (url.drop 5)).takeWhile (· ≠ 63)

/-- The parts the tokens of the path leave in the arrays. -/
def manPartsOf : List Bytes → ManRequestParts
  | [] => { area := lit "system", sect := [], page := [], format := lit "html" }
  | [area] => { area := strlcpy 32 area, sect := [], page := [], format := lit "html" }
  | [area, sect] =>
    { area := strlcpy 32 area, sect := strlcpy 16 sect, page := [], format := lit "html" }
  | area :: sect :: token :: _ =>
    let (sect, page, format) := manParsePageToken (strlcpy 16 sect) token
    { area := strlcpy 32 area, sect, page, format }

/-- `man_render_handler` up to the point where the page is looked up. -/
def manParseUrl (url : Bytes) : Except ManRefusal ManRequestParts :=
  if ¬ lit "/man/" <+: url then .error .invalidUrl
  else
    let parts := manPartsOf (tokens 47 (manPathCopy url))
    if parts.page = [] ∨ parts.sect = [] then .error .missing
    else if parts.format ∉ manFormats then .error .unsupportedFormat
    else if !manIsValidToken parts.page || !manIsValidSection parts.sect then .error .invalid
    else .ok parts

/-- `man_render_cache_key` of these parts. -/
def ManRequestParts.cacheKey (parts : ManRequestParts) : Bytes :=
  strlcpy 192 (parts.area ++ lit "/" ++ parts.sect ++ lit "/" ++ parts.page ++ lit "." ++
    parts.format)

/-- The arguments of the first call of `man_resolve_path`. -/
def ManRequestParts.resolveArguments (parts : ManRequestParts) : Bytes × Bytes :=
  (parts.page, parts.sect)

/-- `cache_rel` and `cache_abs`. -/
structure ManCachePaths where
  rel : Bytes
  abs : Bytes
  deriving DecidableEq, Repr

/-- `build_cache_paths` into the handler's arrays; `none` for its -1, when a path does
not fit. -/
def buildCachePaths (staticDir : Bytes) (parts : ManRequestParts) : Option ManCachePaths :=
  let file := parts.area ++ lit "/" ++ parts.sect ++ lit "/" ++ parts.page ++ lit "." ++ parts.format
  let rel := lit "/static/man/" ++ file
  let abs := staticDir ++ lit "/man/" ++ file
  if 256 ≤ rel.length then none
  else if 512 ≤ abs.length then none
  else some { rel, abs }

end Miniweb.Modules
