import Mathlib
import Miniweb.Lib.Getopt
import Miniweb.Modules.ManSearch
import Miniweb.PackagesProofs
import Miniweb.QueryProofs

/-! What a request adds to the command lines of `apropos` and `pkg_info`. The value is the last
argument, behind the options the code gives and with no `--` between; both checks let a dash
through in every place, the first one too, so a request can give options of its own. -/
namespace Miniweb.ArgumentProofs

open Miniweb.Lib.CString Miniweb.Lib.Getopt Miniweb.Lib.UrlEncoded
open Miniweb.Modules Miniweb.Modules.Packages Miniweb.PackagesProofs Miniweb.QueryProofs

variable {man : ManSearchEnv} {env : PkgEnv} {st : PkgState} {url raw value query : Bytes}

/-! ## The command lines -/

/-- The queries that run `pkg_info` with a value of the request. -/
inductive PackageQuery where
  | search
  | info
  | files
  deriving DecidableEq, Repr

/-- The programs that get a value of the request. -/
inductive Program where
  | apropos
  | pkgInfo (query : PackageQuery)
  deriving DecidableEq, Repr

/-- What the cached answers go by. -/
def PackageQuery.name : PackageQuery → Bytes
  | search => lit "search"
  | info => lit "info"
  | files => lit "files"

/-- The path behind `/api/packages`. -/
def PackageQuery.endpoint : PackageQuery → Bytes
  | search => lit "/search"
  | info => lit "/info"
  | files => lit "/files"

/-- The parameter that holds the value. -/
def PackageQuery.key : PackageQuery → Bytes
  | search => lit "q"
  | info => lit "name"
  | files => lit "name"

/-- The arguments in front of the value. -/
def Program.fixed : Program → List Bytes
  | apropos => [lit "-M", manSearchDirs]
  | pkgInfo .search => [lit "-Q"]
  | pkgInfo .info => []
  | pkgInfo .files => [lit "-L"]

/-- The command line with a value. -/
def Program.argv (program : Program) (value : Bytes) : List Bytes :=
  match program with
  | apropos => lit "apropos" :: program.fixed ++ [value]
  | pkgInfo _ => lit "pkg_info" :: program.fixed ++ [value]

/-- The options the code gives. -/
def Program.letters : Program → Bytes
  | apropos => lit "M"
  | pkgInfo .search => lit "Q"
  | pkgInfo .info => []
  | pkgInfo .files => lit "L"

/-- What is documented of these options: `-M path` and `-Q query` take an argument, `-L` takes
none. -/
def Program.Syntax (takes : UInt8 → Bool) : Program → Prop
  | apropos => takes 77 = true
  | pkgInfo .search => takes 81 = true
  | pkgInfo .info => True
  | pkgInfo .files => takes 76 = false

/-- The value is no option, and the program runs with the options the code gives. -/
structure Harmless (program : Program) (value : Bytes) : Prop where
  plain : value.head? ≠ some 45
  options : ∀ takes, program.Syntax takes →
    optionLetters takes (program.argv value).tail = program.letters

/-- A value that does not begin with a dash adds no option. -/
theorem harmless_iff (program : Program) : Harmless program value ↔ value.head? ≠ some 45 := by
  refine ⟨Harmless.plain, fun plain => ⟨plain, fun takes documented => ?_⟩⟩
  cases program with
  | apropos =>
    show (options takes none ([45, 77] :: manSearchDirs :: [value])).map Prod.fst = _
    rw [options_taking documented (by decide), options_operand plain]
    rfl
  | pkgInfo query =>
    cases query with
    | search =>
      show (options takes none ([45, 81] :: value :: [])).map Prod.fst = _
      rw [options_taking documented (by decide)]
      rfl
    | info =>
      show (options takes none [value]).map Prod.fst = _
      rw [options_operand plain]
      rfl
    | files =>
      show (options takes none ([45, 76] :: [value])).map Prod.fst = _
      rw [options_flag documented (by decide), options_operand plain]
      rfl

/-! ## The package queries -/

variable {query' : PackageQuery}

/-- The request is routed to the endpoint of the query. -/
def PackageQuery.routed (query : PackageQuery) (url : Bytes) : Bool :=
  (lit "/api/packages").isPrefixOf url &&
    pathMatchesEndpoint (url.drop (lit "/api/packages").length) query.endpoint

/-- The function that answers the query. -/
def PackageQuery.json (query : PackageQuery) (env : PkgEnv) (st : PkgState) (value : Bytes) :
    PkgResult :=
  match query with
  | search => pkgSearchJson env st value
  | info => pkgInfoJson env st value
  | files => pkgFilesJson env st value

/-- The command line of a program started directly. -/
def execArgv : Command → Option (List Bytes)
  | .exec _ argv => some argv
  | .shell _ => none

/-- The path an endpoint matches is the endpoint up to its query string. -/
theorem endpoint_eq {path endpoint : Bytes} (clean : 63 ∉ endpoint)
    (taken : pathMatchesEndpoint path endpoint = true) : path.takeWhile (· ≠ 63) = endpoint := by
  obtain ⟨starts, ends⟩ := Bool.and_eq_true_iff.mp taken
  obtain ⟨rest, rfl⟩ := List.isPrefixOf_iff_prefix.mp starts
  have through : ∀ c ∈ endpoint, decide (c ≠ 63) = true := by
    intro c member
    exact decide_eq_true fun question => clean (question ▸ member)
  rw [List.takeWhile_append_of_pos through]
  cases rest with
  | nil => simp
  | cons c rest =>
    rw [List.drop_left, List.head?_cons] at ends
    have question : c = 63 := by simpa using ends
    simp [question]

/-- One path does not match two endpoints. -/
theorem endpoint_unique {path endpoint other : Bytes} (clean : 63 ∉ endpoint) (clean' : 63 ∉ other)
    (different : endpoint ≠ other) (taken : pathMatchesEndpoint path endpoint = true) :
    pathMatchesEndpoint path other = false :=
  Bool.eq_false_iff.mpr fun taken' =>
    different ((endpoint_eq clean taken).symm.trans (endpoint_eq clean' taken'))

/-- A routed request is answered by the query's function. -/
theorem handler_commands (routed : query'.routed url = true) :
    (pkgApiHandler env st url).commands =
      (getQueryValue url query'.key 1024).elim [] fun value => (query'.json env st value).commands := by
  obtain ⟨base, endpoint⟩ := Bool.and_eq_true_iff.mp routed
  have other (e : Bytes) (clean : 63 ∉ e) (different : query'.endpoint ≠ e) :
      pathMatchesEndpoint (url.drop (lit "/api/packages").length) e = false :=
    endpoint_unique (by cases query' <;> decide +kernel) clean different endpoint
  have answered (key : Bytes) (json : Bytes → PkgResult) :
      (withParameter st url key json).commands =
        (getQueryValue url key 1024).elim [] fun value => (json value).commands := by
    rw [withParameter]
    cases getQueryValue url key 1024 with
    | none => rfl
    | some value => rfl
  cases query' with
  | search =>
    simp only [PackageQuery.endpoint] at endpoint
    simp only [pkgApiHandler, base, Bool.not_true, Bool.false_eq_true, if_false, endpoint, if_true]
    exact answered _ _
  | info =>
    simp only [PackageQuery.endpoint] at endpoint
    simp only [pkgApiHandler, base, Bool.not_true, Bool.false_eq_true, if_false,
      other (lit "/search") (by decide +kernel) (by decide +kernel), endpoint, if_true]
    exact answered _ _
  | files =>
    simp only [PackageQuery.endpoint] at endpoint
    simp only [pkgApiHandler, base, Bool.not_true, Bool.false_eq_true, if_false,
      other (lit "/search") (by decide +kernel) (by decide +kernel),
      other (lit "/info") (by decide +kernel) (by decide +kernel),
      other (lit "/which") (by decide +kernel) (by decide +kernel), endpoint, if_true]
    exact answered _ _

/-- The value is let through, and there is no answer for it yet. -/
def PackageQuery.Asks (query : PackageQuery) (env : PkgEnv) (st : PkgState) (value : Bytes) : Prop :=
  isSafePkgName value = true ∧ cached env (packagesCacheBootstrap env st) query.name value = none

instance (query' : PackageQuery) (env : PkgEnv) (st : PkgState) (value : Bytes) :
    Decidable (query'.Asks env st value) :=
  inferInstanceAs (Decidable (_ ∧ _))

/-- The command lines of the three attempts with a value behind `-Q`. -/
theorem mem_searchOutput_iff : (Program.pkgInfo .search).argv value ∈
    (searchOutput env query).2.filterMap execArgv ↔ isSafePkgName query = true ∧ value = query := by
  have listing : (Program.pkgInfo .search).argv value ≠ [lit "pkg_info", lit "-q"] := by
    intro same
    have lengths := congrArg List.length same
    simp [Program.argv, Program.fixed] at lengths
  have first : (Program.pkgInfo .search).argv value ∈ (searchQuery env query).2.filterMap execArgv ↔
      isSafePkgName query = true ∧ value = query := by
    rw [searchQuery]
    split
    · rename_i safe
      simp [safe, execArgv, Program.argv, Program.fixed]
    · rename_i refused
      simp [refused]
  have second : (Program.pkgInfo .search).argv value ∈
        (attempt env (searchListing env query) (searchQuery env query)).2.filterMap execArgv ↔
      isSafePkgName query = true ∧ value = query := by
    rw [attempt]
    split
    · rw [List.filterMap_append, List.mem_append, first]
      simp [searchListing, execArgv, listing]
    · exact first
  rw [searchOutput, attempt]
  split
  · rw [List.filterMap_append, List.mem_append, second]
    simp [searchPopen, execArgv]
  · exact second

/-- `pkg_info_json` starts one program, unless the name is refused or the answer is there. -/
theorem info_commands (env : PkgEnv) (st : PkgState) (query : Bytes) :
    (pkgInfoJson env st query).commands =
      if PackageQuery.info.Asks env st query then [.exec pkgInfo [lit "pkg_info", query]] else [] := by
  rw [pkgInfoJson]
  by_cases asks : PackageQuery.info.Asks env st query
  · rw [if_pos asks]
    obtain ⟨safe, miss⟩ := asks
    rw [PackageQuery.name] at miss
    simp only [safe, miss, Bool.not_true, Bool.false_eq_true, if_false]
    split <;> rfl
  · rw [if_neg asks]
    split
    · rfl
    · rename_i safe
      obtain ⟨json, hit⟩ := Option.ne_none_iff_exists'.mp fun miss => asks ⟨by simpa using safe, miss⟩
      rw [PackageQuery.name] at hit
      simp only [hit]

/-- So does `pkg_files_json`. -/
theorem files_commands (env : PkgEnv) (st : PkgState) (query : Bytes) :
    (pkgFilesJson env st query).commands = if PackageQuery.files.Asks env st query then
      [.exec pkgInfo [lit "pkg_info", lit "-L", query]] else [] := by
  rw [pkgFilesJson]
  by_cases asks : PackageQuery.files.Asks env st query
  · rw [if_pos asks]
    obtain ⟨safe, miss⟩ := asks
    rw [PackageQuery.name] at miss
    simp only [safe, miss, Bool.not_true, Bool.false_eq_true, if_false]
    split
    · rfl
    · split <;> rfl
  · rw [if_neg asks]
    split
    · rfl
    · rename_i safe
      obtain ⟨json, hit⟩ := Option.ne_none_iff_exists'.mp fun miss => asks ⟨by simpa using safe, miss⟩
      rw [PackageQuery.name] at hit
      simp only [hit]

/-- A query puts the value into its command line exactly where it asks for it. -/
theorem mem_json_iff : (Program.pkgInfo query').argv value ∈
      (query'.json env st query).commands.filterMap execArgv ↔
    query'.Asks env st query ∧ value = query := by
  cases query' with
  | search =>
    rw [PackageQuery.json, search_commands, PackageQuery.Asks, PackageQuery.name]
    split
    · rename_i answered
      rcases answered with rfl | hit
      · simp [isSafePkgName]
      · obtain ⟨json, hit⟩ := Option.isSome_iff_exists.mp hit
        simp [hit]
    · rename_i asked
      have miss := Option.not_isSome_iff_eq_none.mp (not_or.mp asked).2
      rw [mem_searchOutput_iff, miss]
      simp
  | info =>
    rw [PackageQuery.json, info_commands]
    by_cases asks : PackageQuery.info.Asks env st query
    · simp [asks, execArgv, Program.argv, Program.fixed]
    · simp [asks]
  | files =>
    rw [PackageQuery.json, files_commands]
    by_cases asks : PackageQuery.files.Asks env st query
    · simp [asks, execArgv, Program.argv, Program.fixed]
    · simp [asks]

/-! ## The search in the manual -/

/-- `apropos` is started with the query it is given, when that passes. -/
theorem mem_searchRaw_iff : Program.apropos.argv value ∈ (manApiSearchRaw man query).commands ↔
    (2 ≤ query.length ∧ manIsValidToken query = true) ∧ value = query := by
  have own : Program.apropos.argv value = aproposArgv query ↔ value = query := by
    simp [Program.argv, Program.fixed, aproposArgv]
  have resolving (sect : Bytes) : Program.apropos.argv value ∉ (manResolvePath man query sect).2 := by
    have different : Program.apropos.argv value ≠ manResolveArgv query sect := by
      intro same
      have lengths := congrArg List.length same
      simp [Program.argv, Program.fixed, manResolveArgv] at lengths
    rw [manResolvePath]
    split
    · exact List.not_mem_nil
    · simpa using different
  rw [manApiSearchRaw]
  split
  · rename_i refused
    simp only [Bool.or_eq_true, decide_eq_true_eq, Bool.not_eq_true'] at refused
    simp only [List.not_mem_nil, false_iff]
    rintro ⟨⟨long, valid⟩, -⟩
    rcases refused with short | invalid
    · omega
    · rw [invalid] at valid
      cases valid
  · rename_i accepted
    simp only [Bool.or_eq_true, decide_eq_true_eq, Bool.not_eq_true', not_or, Bool.not_eq_false]
      at accepted
    have passes : 2 ≤ query.length ∧ manIsValidToken query = true := ⟨by omega, accepted.2⟩
    rw [and_iff_right passes, ← own]
    have first (more : List (List Bytes)) (clean : Program.apropos.argv value ∉ more) :
        Program.apropos.argv value ∈ aproposArgv query :: more ↔
          Program.apropos.argv value = aproposArgv query := by
      simp [clean]
    simp only
    cases ran : ((man.run (aproposArgv query)).map cstr).or (emptyBody man) with
    | none => exact first [] List.not_mem_nil
    | some output =>
      cases output with
      | cons c rest => exact first [] List.not_mem_nil
      | nil =>
        simp only
        -- neither of the two calls of `man_resolve_path` starts `apropos`
        have tried (filepath : Option Bytes) : Program.apropos.argv value ∉
            (if filepath = none then manResolvePath man query (lit "8") else (filepath, [])).2 := by
          split
          · exact resolving _
          · exact List.not_mem_nil
        have both := first _ (List.not_mem_append (resolving (lit "1"))
          (tried (manResolvePath man query (lit "1")).1))
        split
        · exact both
        · split <;> exact both

/-! ## Requests -/

/-- The text of the value begins with a dash, or with the escape of one. -/
def Dashed (raw : Bytes) : Prop := [45] <+: raw ∨ lit "%2d" <+: raw ∨ lit "%2D" <+: raw

/-- Two digits write a dash in one way, but for the case of the letter. -/
theorem escaped_eq_dash {a b : UInt8} (high : isxdigit a = true) (low : isxdigit b = true) :
    escaped a b = 45 ↔ a = 50 ∧ (b = 100 ∨ b = 68) := by
  have nibbles : ∀ hi lo : Fin 16, UInt8.ofNat hi.val * 16 + UInt8.ofNat lo.val = 45 ↔
      UInt8.ofNat hi.val = 2 ∧ UInt8.ofNat lo.val = 13 := by
    decide +kernel
  have digits : ∀ d : UInt8, isxdigit d = true →
      (digitValue d = 2 ↔ d = 50) ∧ (digitValue d = 13 ↔ d = 100 ∨ d = 68) := by
    decide +kernel
  have here := nibbles
    ⟨_, UInt8.lt_iff_toNat_lt.mp (hexValue_of_isxdigit high).2⟩
    ⟨_, UInt8.lt_iff_toNat_lt.mp (hexValue_of_isxdigit low).2⟩
  simp only [UInt8.ofNat_toNat] at here
  rw [escaped, here, (digits a high).1, (digits b low).2]

/-- The decoded value begins with a dash exactly where its text does. -/
theorem head_decode_iff (raw : Bytes) : (cstr (decode raw)).head? = some 45 ↔ Dashed raw := by
  have head (x : UInt8) (rest : Bytes) : (cstr (x :: rest)).head? = some 45 ↔ x = 45 := by
    rw [cstr, List.takeWhile_cons]
    by_cases zero : x = 0
    · simp [zero]
    · simp [zero]
  have percents : lit "%2d" = [37, 50, 100] ∧ lit "%2D" = [37, 50, 68] := by decide +kernel
  rw [Dashed, percents.1, percents.2]
  induction raw using decode_induction with
  | empty => simp [decode, cstr]
  | plus rest _ =>
    rw [decode_plus, head]
    simp
  | escape c a b rest notPlus hex _ =>
    simp only [Bool.and_eq_true, decide_eq_true_eq] at hex
    obtain ⟨⟨rfl, high⟩, low⟩ := hex
    rw [decode_escape high low, head, escaped_eq_dash high low]
    simp [List.cons_prefix_cons, and_or_left, eq_comm]
  | plain c a b rest notPlus other _ =>
    rw [decode, if_neg notPlus]
    simp only [if_neg other, head]
    refine ⟨fun dash => Or.inl ⟨a :: b :: rest, by rw [dash]; rfl⟩, ?_⟩
    simp only [List.cons_prefix_cons]
    rintro (⟨rfl, -⟩ | ⟨rfl, rfl, rfl, -⟩ | ⟨rfl, rfl, rfl, -⟩)
    · rfl
    · exact absurd rfl other
    · exact absurd rfl other
  | short c rest notPlus few _ =>
    have plain : decode (c :: rest) = c :: decode rest := by
      rw [decode.eq_def]
      simp only [if_neg notPlus]
    rw [plain, head]
    refine ⟨fun dash => Or.inl ⟨rest, by rw [dash]; rfl⟩, ?_⟩
    simp only [List.cons_prefix_cons]
    rintro (⟨rfl, -⟩ | ⟨rfl, behind⟩ | ⟨rfl, behind⟩)
    · rfl
    · obtain ⟨rest', rfl⟩ := behind
      exact (few 50 100 rest' rfl).elim
    · obtain ⟨rest', rfl⟩ := behind
      exact (few 50 68 rest' rfl).elim

/-- A decoding is no longer than its text. -/
theorem length_decode_le (raw : Bytes) : (decode raw).length ≤ raw.length := by
  induction raw using decode_induction with
  | empty => simp [decode]
  | plus rest ih =>
    rw [decode_plus, List.length_cons, List.length_cons]
    exact Nat.succ_le_succ ih
  | escape c a b rest notPlus hex ih =>
    rw [decode.eq_def]
    simp only [if_neg notPlus, if_pos hex, List.length_cons]
    omega
  | plain c a b rest notPlus other ih =>
    rw [decode.eq_def]
    simp only [if_neg notPlus, if_neg other, List.length_cons] at ih ⊢
    omega
  | short c rest notPlus few ih =>
    rw [decode.eq_def]
    simp only [if_neg notPlus, List.length_cons]
    omega

/-- The command lines a request makes the server start a program with. -/
def Program.started (man : ManSearchEnv) (env : PkgEnv) (st : PkgState) (url : Bytes) :
    Program → List (List Bytes)
  | apropos => (manSearchPath url).elim [] fun path => (manApiSearch man url path).commands
  | pkgInfo query =>
    if query.routed url then (pkgApiHandler env st url).commands.filterMap execArgv else []

/-- What a request has to look like for an option of its own to get to `pkg_info`: the text of the
parameter begins with a dash or the escape of one, is short enough, decodes to a name that is let
through, and there is no answer for it yet. -/
def PackageQuery.Admits (query : PackageQuery) (env : PkgEnv) (st : PkgState) (url : Bytes) : Prop :=
  query.routed url = true ∧ ∃ raw, queryValue url query.key = some raw ∧ Dashed raw ∧
    raw.length < 1024 ∧ query.Asks env st (cstr (decode raw))

/-- For `apropos` the text behind `/search/` begins with a dash and is a token, or the
parameter is as for `pkg_info`; of two bytes at least. -/
def SearchAdmits (url : Bytes) : Prop :=
  ∃ path, manSearchPath url = some path ∧
    if path[7]? = some 47 then
      [45] <+: path.drop 8 ∧ 2 ≤ (path.drop 8).length ∧ manIsValidToken (path.drop 8) = true
    else
      ∃ raw, queryValue url (lit "q") = some raw ∧ Dashed raw ∧
        raw.length < 512 ∧ (decode raw).length < 256 ∧
        2 ≤ (cstr (decode raw)).length ∧ manIsValidToken (cstr (decode raw)) = true

/-- What a request has to look like to give the program an option. -/
def Program.Admits (env : PkgEnv) (st : PkgState) (url : Bytes) : Program → Prop
  | apropos => SearchAdmits url
  | pkgInfo query => query.Admits env st url

/-- The value `pkg_info` is started with. -/
theorem mem_started_package_iff : (Program.pkgInfo query').argv value ∈
      (Program.pkgInfo query').started man env st url ↔
    query'.routed url = true ∧ query'.Asks env st value ∧
      ∃ raw, queryValue url query'.key = some raw ∧ raw.length < 1024 ∧ value = cstr (decode raw) := by
  rw [Program.started]
  cases routed : query'.routed url with
  | false => simp
  | true =>
    rw [if_pos rfl, handler_commands routed, getQueryValue_spec, decodedValue]
    cases found : queryValue url query'.key with
    | none => simp
    | some raw =>
      have shorter := length_decode_le raw
      by_cases short : raw.length < 1024
      · rw [Option.bind_some, if_pos ⟨short, by omega⟩, Option.map_some, Option.elim_some, mem_json_iff]
        constructor
        · rintro ⟨asks, rfl⟩
          exact ⟨rfl, asks, raw, rfl, short, rfl⟩
        · rintro ⟨-, asks, raw', same, -, rfl⟩
          cases same
          exact ⟨asks, rfl⟩
      · rw [Option.bind_some, if_neg (fun both => short both.1), Option.map_none, Option.elim_none]
        simp [short]

/-- The value `apropos` is started with. -/
theorem mem_started_apropos_iff : Program.apropos.argv value ∈
      Program.apropos.started man env st url ↔
    ∃ path, manSearchPath url = some path ∧ manSearchQuery url path = some value ∧
      2 ≤ value.length ∧ manIsValidToken value = true := by
  rw [Program.started]
  cases routed : manSearchPath url with
  | none => simp
  | some path =>
    rw [Option.elim_some, manApiSearch]
    cases query : manSearchQuery url path with
    | none => simp [query]
    | some given =>
      cases given with
      | nil =>
        simp only [List.not_mem_nil, false_iff]
        rintro ⟨path', same, given, long, -⟩
        cases same
        rw [query] at given
        cases given
        simp at long
      | cons c rest =>
        simp only [mem_searchRaw_iff]
        constructor
        · rintro ⟨⟨long, valid⟩, rfl⟩
          exact ⟨path, rfl, query, long, valid⟩
        · rintro ⟨path', same, given, long, valid⟩
          cases same
          rw [query] at given
          cases given
          exact ⟨⟨long, valid⟩, rfl⟩

/-- The parameter as `apropos` gets it. -/
theorem manSearchQuery_param {path : Bytes} (parameter : path[7]? ≠ some 47) :
    manSearchQuery url path = some value ↔ ∃ raw, queryValue url (lit "q") = some raw ∧
      raw.length < 512 ∧ (decode raw).length < 256 ∧ value = cstr (decode raw) := by
  rw [manSearchQuery, if_neg parameter]
  obtain ⟨answer, whole⟩ := manGetQueryValue_spec url (lit "q") [] 256
  cases found : queryValue url (lit "q") with
  | none =>
    have absent : decodedValue 512 url (lit "q") 256 = none := by rw [decodedValue, found]; rfl
    rw [absent] at answer
    split
    · rename_i given same
      rw [same] at answer
      cases answer
    · simp
  | some raw =>
    by_cases fits : raw.length < 512 ∧ (decode raw).length < 256
    · have here : decodedValue 512 url (lit "q") 256 = some (decode raw) := by
        rw [decodedValue, found, Option.bind_some, if_pos fits]
      rw [whole _ here]
      constructor
      · rintro same
        cases same
        exact ⟨raw, rfl, fits.1, fits.2, rfl⟩
      · rintro ⟨raw', same, -, -, rfl⟩
        cases same
        rfl
    · have absent : decodedValue 512 url (lit "q") 256 = none := by
        rw [decodedValue, found, Option.bind_some, if_neg fits]
      rw [absent] at answer
      split
      · rename_i given same
        rw [same] at answer
        cases answer
      · refine iff_of_false (by simp) ?_
        rintro ⟨raw', same, short, small, -⟩
        cases same
        exact fits ⟨short, small⟩

/-- A request adds an option to the command line of a program exactly where its text is the kind
`Admits` names. -/
theorem values_harmless_iff (man : ManSearchEnv) (env : PkgEnv) (st : PkgState) (url : Bytes)
    (program : Program) :
    (∀ value, program.argv value ∈ program.started man env st url → Harmless program value) ↔
      ¬ program.Admits env st url := by
  simp only [harmless_iff]
  cases program with
  | apropos =>
    simp only [mem_started_apropos_iff]
    constructor
    · rintro plain ⟨path, routed, admitted⟩
      split at admitted
      · rename_i form
        obtain ⟨dash, long, valid⟩ := admitted
        refine plain _ ⟨path, routed, by rw [manSearchQuery, if_pos form], long, valid⟩ ?_
        obtain ⟨rest, same⟩ := dash
        rw [← same]
        rfl
      · rename_i form
        obtain ⟨raw, found, dashed, short, small, long, valid⟩ := admitted
        exact plain _ ⟨path, routed, (manSearchQuery_param form).mpr ⟨raw, found, short, small, rfl⟩,
          long, valid⟩ ((head_decode_iff raw).mpr dashed)
    · rintro none' value ⟨path, routed, query, long, valid⟩ dash
      refine none' ⟨path, routed, ?_⟩
      split
      · rename_i form
        rw [manSearchQuery, if_pos form] at query
        cases query
        refine ⟨?_, long, valid⟩
        obtain ⟨rest, same⟩ := List.head?_eq_some_iff.mp dash
        exact ⟨rest, same.symm⟩
      · rename_i form
        obtain ⟨raw, found, short, small, rfl⟩ := (manSearchQuery_param form).mp query
        exact ⟨raw, found, (head_decode_iff raw).mp dash, short, small, long, valid⟩
  | pkgInfo query =>
    simp only [mem_started_package_iff]
    constructor
    · rintro plain ⟨routed, raw, found, dashed, short, asks⟩
      exact plain _ ⟨routed, asks, raw, found, short, rfl⟩ ((head_decode_iff raw).mpr dashed)
    · rintro none' value ⟨routed, asks, raw, found, short, rfl⟩ dash
      exact none' ⟨routed, raw, found, (head_decode_iff raw).mp dash, short, asks⟩

/-- A machine on which no program prints anything. -/
def silent : ManSearchEnv where
  run := fun _ => none
  readable := fun _ => false
  malloc := fun _ => true

/-- `-a`, here with its dash escaped, is let through: `pkg_info -a` lists every package. -/
theorem request_adds_option :
    ¬ ∀ man env st url, ∀ program : Program, ∀ value,
      program.argv value ∈ program.started man env st url → Harmless program value := by
  intro always
  have harmless := always silent withoutPkgInfo {} (lit "/api/packages/info?name=%2Da")
    (.pkgInfo .info) (lit "-a") (by decide +kernel)
  exact absurd (harmless.options (fun _ => false) trivial) (by decide +kernel)

end Miniweb.ArgumentProofs
