import Miniweb.Modules.ManQuery

/-! `src/modules/man/man_index.c`: the pages of one section of the manual as JSON, and the
two endpoints of `man_api_handler` that ask for them. -/
namespace Miniweb.Modules

open Miniweb.Lib.CString

/-- `MAN_MAX_JSON_SIZE`. -/
abbrev manMaxJsonSize : Nat := 256 * 1024

/-- `JSON_CLOSE_RESERVE`. -/
abbrev jsonCloseReserve : Nat := 4

/-- The capacity of `pages` in `man_get_section_pages_json`. -/
abbrev manMaxPages : Nat := 8192

/-- `struct dirent`: `isDir` says whether `d_type` is `DT_DIR`. -/
structure Dirent where
  name : Bytes
  isDir : Bool
  deriving DecidableEq, Repr

/-- What `man_get_section_pages_json` asks of the outside: the entries `readdir` returns
for a directory, where `opendir` succeeds, and whether the n-th allocation, of so many
bytes, does. -/
structure ManIndexEnv where
  opendir : Bytes → Option (List Dirent)
  allocates : Nat → Nat → Bool

/-- The bases of `man_get_section_pages_json`. -/
def manBase (area : Bytes) : Bytes :=
  if area = lit "packages" then lit "/usr/local/man"
  else if area = lit "x11" then lit "/usr/X11R6/man"
  else lit "/usr/share/man"

/-- `dir_path`. -/
def manSectionDir (area sect : Bytes) : Bytes := strlcpy 256 (manBase area ++ lit "/man" ++ sect)

/-- The name under which an entry is listed, if it belongs to the section. -/
def manPageName (sect : Bytes) (de : Dirent) : Option Bytes :=
  if de.name.head? = some 46 then none
  else if de.isDir then none
  else
    match manParseSectionFromFilename de.name 16 with
    | none => none
    | some resolved =>
      if resolved ≠ sect then none
      else
        let name := strlcpy 128 de.name
        match strrchr 46 name with
        | none => some name
        | some dot => some (name.take dot)

/-- The loop over the directory: the pages kept, in order, after `calls` allocations. -/
def manCollectPages (env : ManIndexEnv) (sect : Bytes) :
    Nat → List Bytes → List Dirent → List Bytes
  | _, pages, [] => pages
  | calls, pages, de :: rest =>
    match manPageName sect de with
    | none => manCollectPages env sect calls pages rest
    | some name =>
      if pages.length < manMaxPages then
        if env.allocates calls (name.length + 1) then
          manCollectPages env sect (calls + 1) (pages ++ [name]) rest
        else manCollectPages env sect (calls + 1) pages rest
      else manCollectPages env sect calls pages rest

/-- The loop over the sorted pages behind `json`: a page that no longer fits is left
out. -/
def manAppendPages : Bytes → Bool → List Bytes → Bytes
  | json, _, [] => json
  | json, first, name :: rest =>
    let entry := (if first then [] else lit ",") ++ lit "\"" ++ name ++ lit "\""
    if manMaxJsonSize ≤ json.length + entry.length + jsonCloseReserve then
      manAppendPages json first rest
    else manAppendPages (json ++ entry) false rest

/-- `{"pages":[]}`. -/
def manNoPages : Bytes := lit "\x7b\"pages\":[]\x7d"

/-- `man_get_section_pages_json`; `none` is its NULL. -/
def manGetSectionPagesJson (env : ManIndexEnv) (area sect : Bytes) : Option Bytes :=
  match env.opendir (manSectionDir area sect) with
  | none => if env.allocates 0 (manNoPages.length + 1) then some manNoPages else none
  | some entries =>
    if env.allocates 0 manMaxJsonSize then
      let pages := manCollectPages env sect 1 [] entries
      some (manAppendPages (lit "\x7b\"pages\":[") true (pages.mergeSort strcmpLe) ++ lit "]\x7d")
    else none

/-! ## The endpoints -/

/-- `sscanf(path, "/%31[^/]/%15s", area, section) == 2`. -/
def manScanAreaSection (path : Bytes) : Option (Bytes × Bytes) :=
  match path with
  | 47 :: rest =>
    let area := (rest.takeWhile (· ≠ 47)).take 31
    match rest.drop area.length with
    | 47 :: rest' =>
      let sect := ((rest'.dropWhile isspace).takeWhile (!isspace ·)).take 15
      if area = [] ∨ sect = [] then none else some (area, sect)
    | _ => none
  | _ => none

/-- The area and the section with which `man_api_handler` calls
`man_get_section_pages_json` for a URL, if it does: from the query string of
`/api/man/pages`, or from a path that is no other endpoint. -/
def manApiSectionPages (url : Bytes) : Option (Bytes × Bytes) :=
  match strstr (lit "/api/man") url with
  | none => none
  | some at' =>
    let path := url.drop (at' + (lit "/api/man").length)
    let endpoint := Packages.pathMatchesEndpoint path
    if endpoint (lit "/sections") then none
    else if endpoint (lit "/pages") then
      match manGetQueryValue url (lit "section") [] 16 with
      | (sect, true) => some ((manGetQueryValue url (lit "area") (lit "system") 16).1, sect)
      | (_, false) => none
    else if endpoint (lit "/resolve") then none
    else if (lit "/search").isPrefixOf path then none
    else
      let pathTmp := (strchr 63 path).elim path path.take
      if pathTmp.length < 64 then manScanAreaSection pathTmp else none

end Miniweb.Modules
