import Miniweb.Modules.ManIndex
import Miniweb.Modules.ManSearch

/-! `man_api_handler` of `src/modules/man/man_render.c`, with the endpoints that are not a list
of pages or a search: the sections, and the file of a page. -/
namespace Miniweb.Modules

open Miniweb.Lib.CString

/-- Where the handler allocates, beside the lists and the search. -/
inductive ManApiAlloc where
  /-- `strdup` of the sections. -/
  | sections
  /-- `strdup` of a document that tells an error. -/
  | message
  /-- The block of `json_escape_string`. -/
  | escaped
  /-- Its `strdup` of an empty string, without the block. -/
  | empty
  /-- The same `strdup` of the handler, where `json_escape_string` returns NULL. -/
  | emptyAgain
  /-- The document of `/resolve`. -/
  | document
  deriving DecidableEq, Repr

/-- What the handler asks of the outside. -/
structure ManApiEnv where
  index : ManIndexEnv
  search : ManSearchEnv
  malloc : ManApiAlloc → Bool
  /-- What `snprintf` puts for a string that is NULL, which C leaves open. -/
  nullText : Bytes

/-- The text of `man_get_sections_json`. -/
def manSections : Bytes :=
  lit "\x7b\"system\":\x7b\"name\":\"OpenBSD Base System\",\"path\":\"/usr/share/man\",\"sections\":[" ++
  lit "\x7b\"id\":\"1\",\"name\":\"General Commands\"\x7d," ++
  lit "\x7b\"id\":\"2\",\"name\":\"System Calls\"\x7d," ++
  lit "\x7b\"id\":\"3\",\"name\":\"Library Functions\"\x7d," ++
  lit "\x7b\"id\":\"3p\",\"name\":\"Perl Library\"\x7d," ++
  lit "\x7b\"id\":\"4\",\"name\":\"Device Drivers\"\x7d," ++
  lit "\x7b\"id\":\"5\",\"name\":\"File Formats\"\x7d," ++
  lit "\x7b\"id\":\"6\",\"name\":\"Games\"\x7d," ++
  lit "\x7b\"id\":\"7\",\"name\":\"Miscellaneous\"\x7d," ++
  lit "\x7b\"id\":\"8\",\"name\":\"System Administration\"\x7d," ++
  lit "\x7b\"id\":\"9\",\"name\":\"Kernel Internals\"\x7d]\x7d," ++
  lit "\"x11\":\x7b\"name\":\"X11 Window System\",\"path\":\"/usr/X11R6/man\",\"sections\":[" ++
  lit "\x7b\"id\":\"1\",\"name\":\"X11 Commands\"\x7d," ++
  lit "\x7b\"id\":\"3\",\"name\":\"X11 Library\"\x7d," ++
  lit "\x7b\"id\":\"4\",\"name\":\"X11 Drivers\"\x7d," ++
  lit "\x7b\"id\":\"5\",\"name\":\"X11 Formats\"\x7d," ++
  lit "\x7b\"id\":\"7\",\"name\":\"X11 Misc\"\x7d]\x7d," ++
  lit "\"packages\":\x7b\"name\":\"Local Packages\",\"path\":\"/usr/local/man\",\"sections\":[" ++
  lit "\x7b\"id\":\"1\",\"name\":\"Pkg General\"\x7d," ++
  lit "\x7b\"id\":\"2\",\"name\":\"Pkg Calls\"\x7d," ++
  lit "\x7b\"id\":\"3\",\"name\":\"Pkg Lib\"\x7d," ++
  lit "\x7b\"id\":\"3p\",\"name\":\"Pkg Perl\"\x7d," ++
  lit "\x7b\"id\":\"4\",\"name\":\"Pkg Drivers\"\x7d," ++
  lit "\x7b\"id\":\"5\",\"name\":\"Pkg Formats\"\x7d," ++
  lit "\x7b\"id\":\"6\",\"name\":\"Pkg Games\"\x7d," ++
  lit "\x7b\"id\":\"7\",\"name\":\"Pkg Misc\"\x7d," ++
  lit "\x7b\"id\":\"8\",\"name\":\"Pkg Admin\"\x7d," ++
  lit "\x7b\"id\":\"9\",\"name\":\"Pkg Kernel\"\x7d]\x7d\x7d"

/-- `man_get_sections_json`. -/
def manGetSectionsJson (env : ManApiEnv) : Option Bytes :=
  if env.malloc .sections then some manSections else none

/-- `strdup` of a document that tells an error. -/
def manErrorJson (env : ManApiEnv) (message : Bytes) : Option Bytes :=
  if env.malloc .message then some (lit "\x7b\"error\":\"" ++ message ++ lit "\"\x7d") else none

/-! ## The file of a page -/

/-- `man_area_from_path`. -/
def manAreaFromPath (filepath : Bytes) : Bytes :=
  if lit "/usr/X11R6/" <+: filepath then lit "x11"
  else if lit "/usr/local/" <+: filepath then lit "packages"
  else lit "system"

/-- `probe_sections`. -/
def probeSections : List Bytes :=
  [lit "1", lit "8", lit "2", lit "3", lit "5", lit "7", lit "6", lit "4", lit "9", lit "3p"]

/-- The section a page is asked for, or found in where none is given, with the path of its
file. -/
def manFindPage (env : ManSearchEnv) (name sect : Bytes) : Option (Bytes × Bytes) :=
  (if sect = [] then probeSections else [sect]).findSome? fun sect =>
    (manResolvePath env name sect).1.map (sect, ·)

/-- `escaped_path`; `none` where it is NULL. -/
def manEscapedPath (env : ManApiEnv) (filepath : Bytes) : Option Bytes :=
  if env.malloc .escaped then some (Packages.escapeFrom (filepath.length * 6 + 1) 0 filepath)
  else if env.malloc .empty || env.malloc .emptyAgain then some []
  else none

/-- The document of `/resolve`. -/
def manResolvedText (name sect area path : Bytes) : Bytes :=
  lit "\x7b\"name\":\"" ++ name ++ lit "\",\"section\":\"" ++ sect ++ lit "\",\"area\":\"" ++ area ++
    lit "\",\"path\":\"" ++ path ++ lit "\"\x7d"

/-- The section in the name of a file, or the one it was found in. -/
def manResolvedSection (sect filepath : Bytes) : Bytes :=
  let base := (strrchr 47 filepath).elim filepath fun slash => filepath.drop (slash + 1)
  (manParseSectionFromFilename base 16).getD sect

/-- The branch for `/resolve`. What `man_get_query_value` answers is not looked at, only what it
leaves in the two arrays. -/
def manResolveJson (env : ManApiEnv) (url : Bytes) : Option Bytes :=
  let name := (manGetQueryValue url (lit "name") [] 64).1
  let sect := (manGetQueryValue url (lit "section") [] 16).1
  if name = [] || !manIsValidToken name || (sect ≠ [] && !manIsValidSection sect) then
    manErrorJson env (lit "name parameter required")
  else
    match manFindPage env.search name sect with
    | none | some (_, []) => manErrorJson env (lit "not found")
    | some (sect, filepath) =>
      if env.malloc .document then
        some (manResolvedText name (manResolvedSection sect filepath) (manAreaFromPath filepath)
          ((manEscapedPath env filepath).getD env.nullText))
      else none

/-! ## The handler -/

/-- What the handler answers with. -/
inductive ManApiReply where
  | error (statusCode : Nat) (message : Bytes)
  | body (contentType text : Bytes)
  deriving DecidableEq, Repr

/-- `json` of the handler, for a path behind `/api/man`. -/
def manApiJson (env : ManApiEnv) (url path : Bytes) : Option Bytes :=
  let endpoint := Packages.pathMatchesEndpoint path
  if endpoint (lit "/sections") then manGetSectionsJson env
  else if endpoint (lit "/pages") then
    match manApiSectionPages url with
    | some (area, sect) => manGetSectionPagesJson env.index area sect
    | none => manErrorJson env (lit "Missing section parameter")
  else if endpoint (lit "/resolve") then manResolveJson env url
  else if (lit "/search").isPrefixOf path then (manApiSearch env.search url path).body
  else
    let json := (manApiSectionPages url).bind fun (area, sect) =>
      manGetSectionPagesJson env.index area sect
    json.or (manErrorJson env (lit "Unknown API endpoint or malformed path"))

/-- `man_api_handler` up to its response. -/
def manApiHandler (env : ManApiEnv) (url : Bytes) : ManApiReply :=
  match strstr (lit "/api/man") url with
  | none => .error 400 (lit "Bad Request")
  | some at' =>
    let path := url.drop (at' + (lit "/api/man").length)
    match manApiJson env url path with
    | none => .error 500 (lit "Internal Server Error")
    | some json =>
      .body (if (strstr (lit "/search") path).isSome then lit "text/plain; charset=utf-8"
        else lit "application/json") json

end Miniweb.Modules
