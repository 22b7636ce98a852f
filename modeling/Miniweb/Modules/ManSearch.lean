import Miniweb.Modules.ManQuery

/-! `src/modules/man/man_index.c` and `man_render.c`: the search behind `/api/man/search`,
from the URL to the programs it starts. -/
namespace Miniweb.Modules

open Miniweb.Lib.CString

/-- Where the search allocates. -/
inductive ManSearchAlloc where
  /-- `strdup("")`. -/
  | empty
  /-- The path `select_resolved_man_path` returns, for a section. -/
  | resolved (sect : Bytes)
  /-- The line of the fallback. -/
  | line
  deriving DecidableEq, Repr

/-- What the search asks of the outside. -/
structure ManSearchEnv where
  /-- `safe_popen_read_argv`: NULL, or the bytes it read. -/
  run : List Bytes → Option Bytes
  /-- Whether `access` finds a path readable. -/
  readable : Bytes → Bool
  malloc : ManSearchAlloc → Bool

/-- The directories the programs look in. -/
def manSearchDirs : Bytes := lit "/usr/share/man:/usr/local/man:/usr/X11R6/man"

/-- `select_resolved_man_path` up to its `strdup`. -/
def selectResolvedManPath (env : ManSearchEnv) (rawOutput : Bytes) : Option Bytes :=
  let spaced := (cstr rawOutput).map fun c => if c = 10 || c = 13 || c = 9 then 32 else c
  let absolute := (tokens 32 spaced).filter fun tok => tok.head? = some 47
  (absolute.find? env.readable).or absolute.head?

/-- `argv` of `man_resolve_path`. -/
def manResolveArgv (name sect : Bytes) : List Bytes :=
  [lit "man", lit "-M", manSearchDirs, lit "-w", sect, name]

/-- `man_resolve_path`: the path, and the programs started. -/
def manResolvePath (env : ManSearchEnv) (name sect : Bytes) : Option Bytes × List (List Bytes) :=
  if !manIsValidToken name || !manIsValidSection sect then (none, [])
  else
    let argv := manResolveArgv name sect
    let path := (env.run argv).bind (selectResolvedManPath env)
    (if env.malloc (.resolved sect) then path else none, [argv])

/-- `argv` of `man_api_search_raw`. -/
def aproposArgv (query : Bytes) : List Bytes := [lit "apropos", lit "-M", manSearchDirs, query]

/-- The line for a page that was resolved although nothing was found. -/
def manFallbackLine (query filepath : Bytes) : Bytes :=
  let base := (strrchr 47 filepath).elim filepath fun slash => filepath.drop (slash + 1)
  let sect := (manParseSectionFromFilename base 16).getD (lit "?")
  strlcpy 256 (query ++ lit " (" ++ sect ++ lit ") - manual page")

/-- The body, `none` for NULL, and the programs started. -/
structure ManSearched where
  body : Option Bytes
  commands : List (List Bytes)

/-- `strdup("")`. -/
def emptyBody (env : ManSearchEnv) : Option Bytes := if env.malloc .empty then some [] else none

/-- `man_api_search_raw`. Where `strdup("")` leaves no output to look at the code reads through
NULL, and the model stops. -/
def manApiSearchRaw (env : ManSearchEnv) (query : Bytes) : ManSearched :=
  if query.length < 2 || !manIsValidToken query then { body := emptyBody env, commands := [] }
  else
    let argv := aproposArgv query
    match ((env.run argv).map cstr).or (emptyBody env) with
    | none => { body := none, commands := [argv] }
    | some [] =>
      let (first, tried) := manResolvePath env query (lit "1")
      let (filepath, tried') :=
        if first = none then manResolvePath env query (lit "8") else (first, [])
      let commands := argv :: tried ++ tried'
      match filepath with
      | none => { body := some [], commands }
      | some filepath =>
        if env.malloc .line then { body := some (manFallbackLine query filepath), commands }
        else { body := emptyBody env, commands }
    | some output => { body := some output, commands := [argv] }

/-- The path behind `/api/man` when `man_api_handler` takes it for a search. -/
def manSearchPath (url : Bytes) : Option Bytes :=
  match strstr (lit "/api/man") url with
  | none => none
  | some at' =>
    let path := url.drop (at' + (lit "/api/man").length)
    let endpoint := Packages.pathMatchesEndpoint path
    if endpoint (lit "/sections") || endpoint (lit "/pages") || endpoint (lit "/resolve") then none
    else if (lit "/search").isPrefixOf path then some path
    else none

/-- `query` of `man_api_handler`, where it is not NULL: what follows `/search/` as it stands, or
the decoded parameter `q`. -/
def manSearchQuery (url path : Bytes) : Option Bytes :=
  if path[7]? = some 47 then some (path.drop 8)
  else
    match manGetQueryValue url (lit "q") [] 256 with
    | (query, true) => some query
    | (_, false) => none

/-- The search of `man_api_handler`, for a path `manSearchPath` finds. -/
def manApiSearch (env : ManSearchEnv) (url path : Bytes) : ManSearched :=
  match manSearchQuery url path with
  | none => { body := emptyBody env, commands := [] }
  | some [] => { body := emptyBody env, commands := [] }
  | some query => manApiSearchRaw env query

end Miniweb.Modules
