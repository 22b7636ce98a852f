import Mathlib
import Miniweb.Lib.Json
import Miniweb.Lib.UrlEncoded

/-! `src/modules/packages/packages_module.c`: the package queries behind
`/api/packages`, with the ring of cached answers in front of them. What the
outside world decides (the clock, subprocesses, allocations) comes from a
`PkgEnv`; a query returns its answer, the module's new state and the commands it
started. -/
namespace Miniweb.Modules.Packages

open Miniweb.Lib Miniweb.Lib.CString Miniweb.Lib.UrlEncoded

/-- `PKG_JSON_MAX`. -/
abbrev pkgJsonMax : Nat := 1024 * 1024

/-- `PKG_CMD_MAX_OUTPUT`. -/
abbrev pkgCmdMaxOutput : Nat := 8 * 1024 * 1024

/-- `PKG_CACHE_TTL_SEC`. -/
abbrev pkgCacheTtlSec : Int := 30

/-- `PKG_RING_CAPACITY`: 2 MiB of samples of 304 bytes each. -/
abbrev pkgRingCapacity : Nat := 2 * 1024 * 1024 / 304

/-! ## The world -/

/-- A place where the module allocates. -/
inductive Alloc where
  | ring
  /-- The copy of an answer that a sample keeps, and the one a hit returns. -/
  | sample
  | hit
  | listOutput
  | popenOutput
  | json
  /-- A `strdup`ed fixed answer. -/
  | text
  | escape (src : Bytes)
  | copy
  deriving DecidableEq, Repr

/-- A program the module starts: directly, or through `/bin/sh -c` by `popen`. -/
inductive Command where
  | exec (path : Bytes) (argv : List Bytes)
  | shell (command : Bytes)
  deriving DecidableEq, Repr

/-- What the module cannot decide itself. -/
structure PkgEnv where
  /-- `time(NULL)` at the lookup and at the store. -/
  now : Int
  stored : Int
  /-- Whether an allocation succeeds. -/
  malloc : Alloc → Bool
  /-- `safe_popen_read_argv`: NULL, or the bytes it read. -/
  run : List Bytes → Option Bytes
  /-- `popen`: NULL, or what the command prints. -/
  popen : Bytes → Option Bytes
  /-- The string found at a block that has been freed. -/
  freed : Bytes

/-! ## The ring of answers -/

/-- `PkgSample`, with the answer's length kept by its list. The zeroed sample is
the default. -/
structure PkgSample where
  ts : Int := 0
  endpoint : Bytes := []
  key : Bytes := []
  json : Option Bytes := none

/-- `PkgRing`; `buf` is NULL until the ring is initialised. -/
structure PkgRing where
  buf : Option (Nat → PkgSample)
  head : Nat
  count : Nat

/-- The module's globals: the ring, whether it is ready, and whether
`pthread_once` has run. -/
structure PkgState where
  ring : PkgRing := { buf := none, head := 0, count := 0 }
  ready : Bool := false
  once : Bool := false

/-- `pkg_ring_init`; `none` for its -1. -/
def pkgRingInit (env : PkgEnv) : Option PkgRing :=
  if env.malloc .ring then some { buf := some fun _ => {}, head := 0, count := 0 } else none

/-- `pkg_ring_push`. -/
def pkgRingPush (env : PkgEnv) (r : PkgRing) (endpoint key json : Bytes) : PkgRing :=
  match r.buf with
  | none => r
  | some buf =>
    if json.length = 0 then r
    else
      let sample : PkgSample :=
        { ts := env.stored
          endpoint := strlcpy 16 endpoint
          key := strlcpy 256 key
          json := if env.malloc .sample then some json else none }
      { buf := some (Function.update buf r.head sample)
        head := (r.head + 1) % pkgRingCapacity
        count := if r.count < pkgRingCapacity then r.count + 1 else r.count }

/-- The test a sample has to pass in `pkg_ring_find`. -/
def sampleMatches (env : PkgEnv) (s : PkgSample) (endpoint key : Bytes) (maxAgeSec : Int) : Bool :=
  s.json.isSome && s.endpoint == endpoint && s.key == key && decide (env.now - s.ts ≤ maxAgeSec)

/-- The search loop of `pkg_ring_find`: the answer and the time of the newest
match so far, from the newest sample to the oldest. -/
def findLoop (env : PkgEnv) (buf : Nat → PkgSample) (start : Nat) (endpoint key : Bytes)
    (maxAgeSec : Int) (count : Nat) : Option Bytes × Int :=
  (List.range count).foldl
    (fun (found, newest) i =>
      let s := buf ((start + pkgRingCapacity - i) % pkgRingCapacity)
      if sampleMatches env s endpoint key maxAgeSec && decide (s.ts > newest) then (s.json, s.ts)
      else (found, newest))
    (none, 0)

/-- `pkg_ring_find`. -/
def pkgRingFind (env : PkgEnv) (r : PkgRing) (endpoint key : Bytes) (maxAgeSec : Int) :
    Option Bytes :=
  match r.buf with
  | none => none
  | some buf =>
    if r.count = 0 then none
    else
      let start := (r.head + pkgRingCapacity - 1) % pkgRingCapacity
      match (findLoop env buf start endpoint key maxAgeSec r.count).1 with
      | none => none
      | some json => if env.malloc .hit then some json else none

/-- `packages_cache_bootstrap` under `pthread_once`. -/
def packagesCacheBootstrap (env : PkgEnv) (st : PkgState) : PkgState :=
  if st.once then st
  else
    match pkgRingInit env with
    | none => { st with once := true }
    | some ring => { ring, ready := true, once := true }

/-! ## Checks and the query string -/

/-- A byte `is_safe_pkg_name` accepts: alphanumeric or one of `. _ - +`. -/
def isSafePkgByte (c : UInt8) : Bool := isalnum c || c = 46 || c = 95 || c = 45 || c = 43

/-- `is_safe_pkg_name`. -/
def isSafePkgName (name : Bytes) : Bool := !name.isEmpty && name.all isSafePkgByte

/-- The bytes `is_safe_path` refuses besides control characters. -/
def shellMetacharacters : Bytes := lit ";|&`$><\\\"'"

/-- `is_safe_path`. -/
def isSafePath (path : Bytes) : Bool :=
  path.head? = some 47 &&
    path.all fun c => !(c < 32 || c = 127) && !shellMetacharacters.contains c

/-- The loop of `url_decode_into` with `di` bytes written to a buffer of
`dstSize`. -/
def urlDecodeFrom (dstSize : Nat) : Nat → Bytes → Option Bytes
  | _, [] => some []
  | di, c :: rest =>
    if dstSize ≤ di + 1 then none
    else if c = 43 then (urlDecodeFrom dstSize (di + 1) rest).map (32 :: ·)
    else
      match rest with
      | a :: b :: rest' =>
        if c = 37 && isxdigit a && isxdigit b then
          (urlDecodeFrom dstSize (di + 1) rest').map (escaped a b :: ·)
        else (urlDecodeFrom dstSize (di + 1) (a :: b :: rest')).map (c :: ·)
      | rest => (urlDecodeFrom dstSize (di + 1) rest).map (c :: ·)

/-- `url_decode_into`: the bytes written before the terminator, `none` for its
-1. -/
def urlDecodeInto (src : Bytes) (dstSize : Nat) : Option Bytes :=
  if dstSize = 0 then none else urlDecodeFrom dstSize 0 src

/-- The `&` behind the first entry of a query string, or its end. -/
def ampersand (qs : Bytes) : Nat := (strchr 38 qs).getD qs.length

/-- `qs` moved past its first entry. -/
def nextEntry (qs : Bytes) : Bytes := qs.drop (ampersand qs + 1)

/-- The entries behind the first one are fewer bytes. -/
theorem length_nextEntry {qs : Bytes} (nonempty : qs ≠ []) : (nextEntry qs).length < qs.length := by
  have := List.length_pos_iff.mpr nonempty
  rw [nextEntry, List.length_drop]
  omega

/-- The loop of `get_query_value` from `qs` on, which ends since each round moves `qs` past an
entry. -/
def queryValueFrom (key : Bytes) (outSize : Nat) (qs : Bytes) : Option Bytes :=
  if _ended : qs = [] then none
  else
    let amp := ampersand qs
    match strchr 61 qs with
    | none => queryValueFrom key outSize (nextEntry qs)
    | some eq =>
      if amp < eq then queryValueFrom key outSize (nextEntry qs)
      else if eq = key.length && key.isPrefixOf qs then
        let encoded := (qs.drop (eq + 1)).take (amp - (eq + 1))
        if 1024 ≤ encoded.length then none else urlDecodeInto encoded outSize
      else queryValueFrom key outSize (nextEntry qs)
termination_by qs.length
decreasing_by all_goals exact length_nextEntry _ended

/-- `get_query_value`: the string left in `out`, `none` for its 0. -/
def getQueryValue (url key : Bytes) (outSize : Nat) : Option Bytes :=
  match strchr 63 url with
  | none => none
  | some at' =>
    (queryValueFrom key outSize (url.drop (at' + 1))).map cstr

/-- `path_matches_endpoint`. -/
def pathMatchesEndpoint (path endpoint : Bytes) : Bool :=
  endpoint.isPrefixOf path &&
    ((path.drop endpoint.length).head? = none || (path.drop endpoint.length).head? = some 63)

/-! ## Building an answer -/

/-- What `json_escape_string` writes for one byte. -/
def escapeByte (c : UInt8) : Bytes :=
  if c = 34 then [92, 34]
  else if c = 92 then [92, 92]
  else if c = 8 then [92, 98]
  else if c = 12 then [92, 102]
  else if c = 10 then [92, 110]
  else if c = 13 then [92, 114]
  else if c = 9 then [92, 116]
  else if c < 32 then [92, 117] ++ Json.hex4 c.toNat
  else [c]

/-- The loop of `json_escape_string` with `d` bytes written and `maxOut` bytes
of room: it stops where a longest escape might not fit. -/
def escapeFrom (maxOut : Nat) : Nat → Bytes → Bytes
  | _, [] => []
  | d, c :: rest =>
    if maxOut - 1 ≤ d + 7 then []
    else escapeByte c ++ escapeFrom maxOut (d + (escapeByte c).length) rest

/-- `json_escape_string` of `src/http/utils.c`; without memory its answer is
the empty string. -/
def jsonEscapeString (env : PkgEnv) (src : Bytes) : Bytes :=
  if env.malloc (.escape src) then escapeFrom (src.length * 6 + 1) 0 src else []

/-- The answer being built in a block of `PKG_JSON_MAX` bytes. `offset` is what
the `snprintf` calls so far have returned, and may pass the end of the block;
`overrun` records a call that was given a start beyond it. -/
structure JsonBuf where
  text : Bytes := []
  offset : Nat := 0
  overrun : Bool := false

/-- `offset += snprintf(json + offset, PKG_JSON_MAX - offset, ..)`. -/
def JsonBuf.append (b : JsonBuf) (piece : Bytes) : JsonBuf :=
  { text := b.text ++ piece.take (pkgJsonMax - 1 - b.offset)
    offset := b.offset + piece.length
    overrun := b.overrun || pkgJsonMax < b.offset }

/-- The loop over the lines of an output: those `keep` selects, quoted, with
commas between them, until the block is nearly full. -/
def appendLines (env : PkgEnv) (keep : Bytes → Option Bytes) : Bool → JsonBuf → List Bytes → JsonBuf
  | _, b, [] => b
  | first, b, line :: rest =>
    if pkgJsonMax - 256 ≤ b.offset then b
    else
      match keep line with
      | none => appendLines env keep first b rest
      | some line =>
        appendLines env keep false
          (b.append ((if first then [] else lit ",") ++ lit "\"" ++ jsonEscapeString env line ++
            lit "\"")) rest

/-- `line[strcspn(line, "\r")] = '\0'`. -/
def cutReturn (line : Bytes) : Bytes := line.takeWhile (· ≠ 13)

/-- `trim_ascii_whitespace`. -/
def trimAsciiWhitespace (s : Bytes) : Bytes :=
  ((s.dropWhile isblank).reverse.dropWhile isblank).reverse

/-- The lines `pkg_search_json` lists. -/
def searchLine (line : Bytes) : Option Bytes :=
  let line := trimAsciiWhitespace (cutReturn line)
  if line ≠ [] ∧ line.length > 1 then some line else none

/-- The lines `pkg_files_json` lists: absolute paths. -/
def filesLine (line : Bytes) : Option Bytes :=
  let line := cutReturn line
  if line.head? = some 47 then some line else none

/-- The lines `pkg_list_json` lists. -/
def listLine (line : Bytes) : Option Bytes :=
  let line := cutReturn line
  if line ≠ [] then some line else none

/-- `make_raw_json`. -/
def makeRawJson (env : PkgEnv) (output : Option Bytes) : Option Bytes :=
  match output.map cstr with
  | none | some [] =>
    if env.malloc .text then some (lit "\x7b\"raw\":\"\",\"found\":false\x7d") else none
  | some output =>
    if !env.malloc .copy then none
    else
      let trailing := fun c : UInt8 => c = 10 || c = 13 || c = 32 || c = 9
      let copy := (output.reverse.dropWhile trailing).reverse
      if !env.malloc .json then none
      else some (lit "\x7b\"raw\":\"" ++ jsonEscapeString env copy ++ lit "\",\"found\":true\x7d")

/-! ## The queries -/

/-- What a query leaves behind. -/
structure PkgResult where
  json : Option Bytes
  state : PkgState
  commands : List Command

/-- A `strdup`ed answer. -/
def fixedAnswer (env : PkgEnv) (st : PkgState) (commands : List Command) (answer : Bytes) :
    PkgResult :=
  { json := if env.malloc .text then some answer else none, state := st, commands }

/-- `/usr/sbin/pkg_info`. -/
def pkgInfo : Bytes := lit "/usr/sbin/pkg_info"

/-- Storing an answer in the ring, when it is ready. -/
def store (env : PkgEnv) (st : PkgState) (endpoint key json : Bytes) : PkgState :=
  if st.ready then { st with ring := pkgRingPush env st.ring endpoint key json } else st

/-- The lookup every query starts with, when the ring is ready. -/
def cached (env : PkgEnv) (st : PkgState) (endpoint key : Bytes) : Option Bytes :=
  if st.ready then pkgRingFind env st.ring endpoint key pkgCacheTtlSec else none

/-- The pointer `output` of `pkg_search_json`. -/
inductive Output where
  | null
  | text (string : Bytes)
  /-- Freed and not assigned since. -/
  | dangling
  deriving DecidableEq, Repr

/-- The string `output` points to. -/
def Output.read (env : PkgEnv) : Output → Option Bytes
  | .null => none
  | .text string => some string
  | .dangling => some env.freed

/-- `!output || output[0] == '\0'`. -/
def Output.isEmpty (env : PkgEnv) (output : Output) : Bool :=
  match output.read env with
  | none => true
  | some string => string.isEmpty

/-- `free(output)`, which does not change the pointer. -/
def Output.free : Output → Output
  | .null => .null
  | _ => .dangling

/-- One round of the loop over the listing: a line that contains the query is
appended, behind a newline, when it fits `PKG_CMD_MAX_OUTPUT`. -/
def grepLine (query output line : Bytes) : Bytes :=
  if (strstr query line).isSome then
    if output.length + line.length + 2 < pkgCmdMaxOutput then
      if 0 < output.length then output ++ lit "\n" ++ line else output ++ line
    else output
  else output

/-- The lines of `pkg_info -q` that contain the query. -/
def grepLines (query : Bytes) (listing : Bytes) : Bytes :=
  (lineTokens (cstr listing)).foldl (grepLine query) []

/-- The loop that reads a command's output with `fgets`. -/
def readPopen (printed : Bytes) : Bytes :=
  (fgetsChunks 1023 1023 [] printed).foldl
    (fun output chunk =>
      if output.length < pkgCmdMaxOutput - 1 ∧
          output.length + (cstr chunk).length < pkgCmdMaxOutput - 1 then output ++ cstr chunk
      else output)
    []

/-- The command of the last resort: `snprintf` into `cmd[256]`. -/
def popenCommand (query : Bytes) : Bytes :=
  (lit "pkg_info -Q " ++ query ++ lit " 2>&1").take 255

/-- The first attempt of `pkg_search_json`: `pkg_info -Q` for a safe query. -/
def searchQuery (env : PkgEnv) (query : Bytes) : Output × List Command :=
  if isSafePkgName query then
    let argv := [lit "pkg_info", lit "-Q", query]
    (match env.run argv with
      | none => .null
      | some bytes => .text (cstr bytes),
     [.exec pkgInfo argv])
  else (.null, [])

/-- The second attempt, made when the first left nothing: search `pkg_info -q`.
Where that fails `output` is left as `free` left it. -/
def searchListing (env : PkgEnv) (query : Bytes) (output : Output) : Output × List Command :=
  let argv := [lit "pkg_info", lit "-q"]
  (match env.run argv with
    | none => output.free
    | some listing =>
      if env.malloc .listOutput then .text (grepLines query listing) else .null,
   [.exec pkgInfo argv])

/-- The last resort: the query in a shell command. -/
def searchPopen (env : PkgEnv) (query : Bytes) (output : Output) : Output × List Command :=
  let cmd := popenCommand query
  (match env.popen cmd with
    | none => output.free
    | some printed => if env.malloc .popenOutput then .text (readPopen printed) else .null,
   [.shell cmd])

/-- One attempt after another, until one leaves something. -/
def attempt (env : PkgEnv) (next : Output → Output × List Command)
    (before : Output × List Command) : Output × List Command :=
  if before.1.isEmpty env then
    let result := next before.1
    (result.1, before.2 ++ result.2)
  else before

/-- The three attempts of `pkg_search_json`. -/
def searchOutput (env : PkgEnv) (query : Bytes) : Output × List Command :=
  attempt env (searchPopen env query) (attempt env (searchListing env query) (searchQuery env query))

/-- The answer `pkg_search_json` builds from an output. -/
def searchJson (env : PkgEnv) (query output : Bytes) : JsonBuf :=
  let b : JsonBuf := {}
  let b := b.append (lit "\x7b\"query\":\"" ++ jsonEscapeString env query ++ lit "\",\"packages\":[")
  (appendLines env searchLine true b (lineTokens output)).append (lit "]\x7d")

/-- The answer when nothing was found. -/
def emptySearch : Bytes := lit "\x7b\"query\":\"\",\"packages\":[]\x7d"

/-- `pkg_search_json`. -/
def pkgSearchJson (env : PkgEnv) (st : PkgState) (query : Bytes) : PkgResult :=
  if query.length < 1 then fixedAnswer env st [] emptySearch
  else
    let st := packagesCacheBootstrap env st
    match cached env st (lit "search") query with
    | some json => { json := some json, state := st, commands := [] }
    | none =>
      let (output, commands) := searchOutput env query
      if output.isEmpty env then fixedAnswer env st commands emptySearch
      else if !env.malloc .json then fixedAnswer env st commands emptySearch
      else
        let json := (searchJson env query ((output.read env).getD [])).text
        { json := some json, state := store env st (lit "search") query json, commands }

/-- `pkg_info_json`. -/
def pkgInfoJson (env : PkgEnv) (st : PkgState) (packageName : Bytes) : PkgResult :=
  if !isSafePkgName packageName then
    fixedAnswer env st [] (lit "\x7b\"found\":false,\"raw\":\"invalid package name\"\x7d")
  else
    let st := packagesCacheBootstrap env st
    match cached env st (lit "info") packageName with
    | some json => { json := some json, state := st, commands := [] }
    | none =>
      let argv := [lit "pkg_info", packageName]
      let commands := [.exec pkgInfo argv]
      match makeRawJson env (env.run argv) with
      | none => fixedAnswer env st commands (lit "\x7b\"found\":false,\"raw\":\"\"\x7d")
      | some json => { json := some json, state := store env st (lit "info") packageName json, commands }

/-- `pkg_files_json`. -/
def pkgFilesJson (env : PkgEnv) (st : PkgState) (packageName : Bytes) : PkgResult :=
  if !isSafePkgName packageName then
    fixedAnswer env st [] (lit "\x7b\"error\":\"invalid package name\"\x7d")
  else
    let st := packagesCacheBootstrap env st
    match cached env st (lit "files") packageName with
    | some json => { json := some json, state := st, commands := [] }
    | none =>
      let argv := [lit "pkg_info", lit "-L", packageName]
      let commands := [.exec pkgInfo argv]
      let opening := lit "\x7b\"package\":\"" ++ jsonEscapeString env packageName ++ lit "\",\"files\":["
      if !env.malloc .json then { json := none, state := st, commands }
      else
        match env.run argv with
        | none => { json := some (opening ++ lit "]\x7d"), state := st, commands }
        | some output =>
          let b : JsonBuf := {}
          let b := appendLines env filesLine true (b.append opening) (lineTokens (cstr output))
          let json := (b.append (lit "]\x7d")).text
          { json := some json, state := store env st (lit "files") packageName json, commands }

/-- `pkg_list_json`. -/
def pkgListJson (env : PkgEnv) (st : PkgState) : PkgResult :=
  let st := packagesCacheBootstrap env st
  match cached env st (lit "list") (lit "all") with
  | some json => { json := some json, state := st, commands := [] }
  | none =>
    let argv := [lit "pkg_info", lit "-qmz"]
    let commands := [.exec pkgInfo argv]
    if !env.malloc .json then fixedAnswer env st commands (lit "\x7b\"packages\":[]\x7d")
    else
      let b : JsonBuf := {}
      let b := b.append (lit "\x7b\"packages\":[")
      let b := match env.run argv with
        | none => b
        | some output => appendLines env listLine true b (lineTokens (cstr output))
      let json := (b.append (lit "]\x7d")).text
      { json := some json, state := store env st (lit "list") (lit "all") json, commands }

/-- `pkg_which_json`. -/
def pkgWhichJson (env : PkgEnv) (st : PkgState) (filePath : Bytes) : PkgResult :=
  if !isSafePath filePath then
    fixedAnswer env st [] (lit ("\x7b\"found\":false,\"raw\":\"path must be absolute and " ++
      "contain no shell metacharacters\"\x7d"))
  else
    let st := packagesCacheBootstrap env st
    match cached env st (lit "which") filePath with
    | some json => { json := some json, state := st, commands := [] }
    | none =>
      let argvW := [lit "pkg_info", lit "-W", filePath]
      let argvE := [lit "pkg_info", lit "-E", filePath]
      let found := (env.run argvW).map cstr
      let output := if found = none ∨ found = some [] then env.run argvE else env.run argvW
      let commands := .exec pkgInfo argvW ::
        if found = none ∨ found = some [] then [.exec pkgInfo argvE] else []
      match makeRawJson env output with
      | none => fixedAnswer env st commands (lit "\x7b\"found\":false,\"raw\":\"\"\x7d")
      | some json => { json := some json, state := store env st (lit "which") filePath json, commands }

/-! ## The handler -/

/-- What `pkg_api_handler` answers: an error with its text, or a JSON body. -/
inductive Reply where
  | error (status : Nat) (text : Bytes)
  | json (body : Bytes)
  deriving DecidableEq, Repr

/-- The handler's answer, the module's state and the commands it started. -/
structure Handled where
  reply : Reply
  state : PkgState
  commands : List Command

/-- The end of `pkg_api_handler`. -/
def answerWith (result : PkgResult) : Handled :=
  { reply := match result.json with
      | none => .error 500 (lit "Unable to query package manager")
      | some body => .json body
    state := result.state
    commands := result.commands }

/-- An endpoint that takes one parameter. -/
def withParameter (st : PkgState) (url key : Bytes) (query : Bytes → PkgResult) : Handled :=
  match getQueryValue url key 1024 with
  | none =>
    { reply := .error 400 (lit "Missing " ++ key ++ lit " parameter"), state := st, commands := [] }
  | some value => answerWith (query value)

/-- `pkg_api_handler`. -/
def pkgApiHandler (env : PkgEnv) (st : PkgState) (url : Bytes) : Handled :=
  let base := lit "/api/packages"
  if !base.isPrefixOf url then
    { reply := .error 400 (lit "Bad Request"), state := st, commands := [] }
  else
    let path := url.drop base.length
    if pathMatchesEndpoint path (lit "/search") then
      withParameter st url (lit "q") (pkgSearchJson env st)
    else if pathMatchesEndpoint path (lit "/info") then
      withParameter st url (lit "name") (pkgInfoJson env st)
    else if pathMatchesEndpoint path (lit "/which") then
      withParameter st url (lit "path") (pkgWhichJson env st)
    else if pathMatchesEndpoint path (lit "/files") then
      withParameter st url (lit "name") (pkgFilesJson env st)
    else if pathMatchesEndpoint path (lit "/list") then answerWith (pkgListJson env st)
    else { reply := .error 404 (lit "Unknown packages endpoint"), state := st, commands := [] }

end Miniweb.Modules.Packages
