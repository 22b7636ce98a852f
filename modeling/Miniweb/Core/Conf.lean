import Mathlib
import Miniweb.Lib.CString
import Miniweb.Lib.Getopt

/-! `src/core/conf.c`, `conf_defaults.c`, `conf_validation.c` and `parse_args`
of `src/app_main.c`: how a start-up turns a configuration file and a command
line into the configuration the server runs with, or into an exit. -/
namespace Miniweb.Core

open Miniweb.Lib Miniweb.Lib.CString

/-- `CONF_STR_MAX`. -/
abbrev confStrMax : Nat := 256

/-- `MINIWEB_THREAD_POOL_SIZE`. -/
abbrev threadPoolSize : Int := 32

/-- `miniweb_conf_t`. -/
structure Conf where
  port : Int := 0
  bindAddr : Bytes := []
  threads : Int := 0
  maxConns : Int := 0
  connTimeout : Int := 0
  maxReqSize : Int := 0
  mandocTimeout : Int := 0
  staticDir : Bytes := []
  templatesDir : Bytes := []
  autoindex : Int := 0
  mandocPath : Bytes := []
  trustedProxy : Bytes := []
  verbose : Int := 0
  logFile : Bytes := []
  enableViews : Int := 0
  enableMetrics : Int := 0
  enableNetworking : Int := 0
  enableMan : Int := 0
  enablePackages : Int := 0
  deriving DecidableEq, Repr

/-- `conf_default_threads`; `cores` is what `sysconf` reports. -/
def confDefaultThreads (cores : Int) : Int :=
  if cores < 1 then 4 else if cores > threadPoolSize then threadPoolSize else cores

/-- `conf_defaults`. -/
def confDefaults (cores : Int) : Conf where
  port := 9001
  bindAddr := strlcpy confStrMax (lit "127.0.0.1")
  threads := confDefaultThreads cores
  maxConns := 1280
  connTimeout := 30
  maxReqSize := 16384
  mandocTimeout := 10
  staticDir := strlcpy confStrMax (lit "static")
  templatesDir := strlcpy confStrMax (lit "templates")
  autoindex := 0
  mandocPath := strlcpy confStrMax (lit "/usr/bin/mandoc")
  trustedProxy := strlcpy confStrMax (lit "127.0.0.1")
  verbose := 0
  logFile := []
  enableViews := 1
  enableMetrics := 1
  enableNetworking := 1
  enableMan := 1
  enablePackages := 1

/-- `conf_validate(conf) == 0`. -/
def confValidate (conf : Conf) : Bool :=
  !(conf.port ≤ 0 || conf.port > 65535) && !(conf.threads ≤ 0) && !(conf.maxConns ≤ 0) &&
    !(conf.connTimeout ≤ 0) && !(conf.maxReqSize ≤ 0) && !(conf.mandocTimeout ≤ 0)

/-- `ltrim`. -/
def ltrim (s : Bytes) : Bytes := s.dropWhile isspace

/-- `rtrim`. -/
def rtrim (s : Bytes) : Bytes := s.rdropWhile isspace

/-- `parse_bool`. -/
def parseBool (val : Bytes) : Int :=
  if strcaseeq val (lit "yes") || strcaseeq val (lit "true") then 1
  else if strcaseeq val (lit "no") || strcaseeq val (lit "false") then 0
  else if atoi val ≠ 0 then 1 else 0

/-- `conf_apply_kv`; `none` for an unknown key. -/
def confApplyKv (conf : Conf) (key val : Bytes) : Option Conf :=
  if strcaseeq key (lit "port") then some { conf with port := atoi val }
  else if strcaseeq key (lit "bind_addr") || strcaseeq key (lit "bind") then
    some { conf with bindAddr := strlcpy confStrMax val }
  else if strcaseeq key (lit "threads") then some { conf with threads := atoi val }
  else if strcaseeq key (lit "max_conns") then some { conf with maxConns := atoi val }
  else if strcaseeq key (lit "conn_timeout") then some { conf with connTimeout := atoi val }
  else if strcaseeq key (lit "max_req_size") then some { conf with maxReqSize := atoi val }
  else if strcaseeq key (lit "mandoc_timeout") then some { conf with mandocTimeout := atoi val }
  else if strcaseeq key (lit "static_dir") then
    some { conf with staticDir := strlcpy confStrMax val }
  else if strcaseeq key (lit "templates_dir") then
    some { conf with templatesDir := strlcpy confStrMax val }
  else if strcaseeq key (lit "autoindex") then some { conf with autoindex := parseBool val }
  else if strcaseeq key (lit "mandoc_path") then
    some { conf with mandocPath := strlcpy confStrMax val }
  else if strcaseeq key (lit "trusted_proxy") then
    some { conf with trustedProxy := strlcpy confStrMax val }
  else if strcaseeq key (lit "verbose") then some { conf with verbose := parseBool val }
  else if strcaseeq key (lit "log_file") then some { conf with logFile := strlcpy confStrMax val }
  else if strcaseeq key (lit "enable_views") then some { conf with enableViews := parseBool val }
  else if strcaseeq key (lit "enable_metrics") then
    some { conf with enableMetrics := parseBool val }
  else if strcaseeq key (lit "enable_networking") then
    some { conf with enableNetworking := parseBool val }
  else if strcaseeq key (lit "enable_man") then some { conf with enableMan := parseBool val }
  else if strcaseeq key (lit "enable_packages") then
    some { conf with enablePackages := parseBool val }
  else none

/-- What the parser reports on standard error before it fails. -/
inductive ConfError where
  | missingValue (lineno : Nat) (key : Bytes)
  | unknownKey (lineno : Nat) (key : Bytes)
  | invalidValues
  | notFound (path : Bytes)
  deriving DecidableEq, Repr

/-- `conf_parse_line`. -/
def confParseLine (conf : Conf) (lineno : Nat) (line : Bytes) : Except ConfError Conf :=
  let p := rtrim (ltrim (cstr line))
  if p = [] ∨ p.head? = some 35 then .ok conf
  else
    let key := p.takeWhile (!isspace ·)
    let val := p.dropWhile (!isspace ·)
    if val = [] then .error (.missingValue lineno key)
    else
      match confApplyKv conf key (ltrim val.tail) with
      | none => .error (.unknownKey lineno key)
      | some conf => .ok conf

/-- The read loop of `conf_parse_file` over the chunks `fgets` returns: what it leaves in
`*conf`, and the line it stops at if it refuses one. -/
def confParseLines (conf : Conf) (lineno : Nat) : List Bytes → Conf × Option ConfError
  | [] => (conf, none)
  | line :: rest =>
    match confParseLine conf (lineno + 1) line with
    | .error e => (conf, some e)
    | .ok conf => confParseLines conf (lineno + 1) rest

/-- How `conf_parse_file` ends: the file cannot be opened, or it is parsed and
validated, or it is refused. -/
inductive ParseFile where
  | missing
  | parsed (conf : Conf)
  | failed (e : ConfError)
  deriving DecidableEq, Repr

/-- `conf_parse_file` on what `fopen` finds. -/
def confParseFile (conf : Conf) : Option Bytes → ParseFile
  | none => .missing
  | some content =>
    match confParseLines conf 0 (fgetsChunks 511 511 [] content) with
    | (_, some e) => .failed e
    | (conf, none) => if confValidate conf then .parsed conf else .failed .invalidValues

/-- `conf_parse_file` behind `fopen`: what it returns, and what `*conf` is then. -/
def confParseChunks (conf : Conf) (chunks : List Bytes) : Int × Conf :=
  match confParseLines conf 0 chunks with
  | (conf, some _) => (-1, conf)
  | (conf, none) => (if confValidate conf then 0 else -1, conf)

/-- `conf_parse_file(path, conf)` on what `fopen` finds, as its caller sees it. -/
def confParseFileInto (conf : Conf) : Option Bytes → Int × Conf
  | none => (1, conf)
  | some content => confParseChunks conf (fgetsChunks 511 511 [] content)

/-- What start-up reads from its surroundings: the files it can open, `$HOME`
and the number of processors. -/
structure StartEnv where
  files : Bytes → Option Bytes
  home : Option Bytes
  cores : Int

/-- The candidate loop of `conf_load`. -/
def confLoadFirst (env : StartEnv) (conf : Conf) : List Bytes → Except ConfError Conf
  | [] => .ok conf
  | path :: rest =>
    match confParseFile conf (env.files path) with
    | .parsed conf => .ok conf
    | .failed e => .error e
    | .missing => confLoadFirst env conf rest

/-- `conf_load`. -/
def confLoad (env : StartEnv) (conf : Conf) : Option Bytes → Except ConfError Conf
  | some path =>
    match confParseFile conf (env.files path) with
    | .missing => .error (.notFound path)
    | .parsed conf => .ok conf
    | .failed e => .error e
  | none =>
    let homePath := env.home.map fun home => strlcpy confStrMax (home ++ lit "/.miniweb.conf")
    confLoadFirst env conf ([lit "./miniweb.conf"] ++ homePath.toList ++ [lit "/etc/miniweb.conf"])

/-- `conf_apply_cli`. -/
def confApplyCli (conf : Conf) (cliPort : Int) (cliBind : Option Bytes) (cliThreads : Int)
    (cliMaxConns : Int) (cliLogFile : Option Bytes) (cliVerbose : Int) : Conf :=
  let conf := if cliPort > 0 then { conf with port := cliPort } else conf
  let conf := match cliBind with
    | some addr => { conf with bindAddr := strlcpy confStrMax addr }
    | none => conf
  let conf := if cliThreads > 0 then { conf with threads := cliThreads } else conf
  let conf := if cliMaxConns > 0 then { conf with maxConns := cliMaxConns } else conf
  let conf := match cliLogFile with
    | some path => { conf with logFile := strlcpy confStrMax path }
    | none => conf
  if cliVerbose ≠ 0 then { conf with verbose := cliVerbose } else conf

/-- What `getopt(argc, argv, "f:p:b:t:c:l:vh")` returns, with its `optarg`. -/
inductive Opt where
  | f (arg : Bytes)
  | p (arg : Bytes)
  | b (arg : Bytes)
  | t (arg : Bytes)
  | c (arg : Bytes)
  | l (arg : Bytes)
  | v
  | h
  | other
  deriving DecidableEq, Repr

/-- The options of the option string that take an argument. -/
def optWithArg (ch : UInt8) : Option (Bytes → Opt) :=
  if ch = 102 then some .f
  else if ch = 112 then some .p
  else if ch = 98 then some .b
  else if ch = 116 then some .t
  else if ch = 99 then some .c
  else if ch = 108 then some .l
  else none

/-- The options of the option string that take none; anything else is `?`. -/
def optFlag (ch : UInt8) : Opt := if ch = 118 then .v else if ch = 104 then .h else .other

/-- One option; a letter that lacks its argument is `?`. -/
def optOf : Getopt.Given → Opt
  | (ch, arg) =>
    match optWithArg ch, arg with
    | some opt, some arg => opt arg
    | some _, none => .other
    | none, _ => optFlag ch

/-- `getopt`, called until it returns -1, on the arguments after `argv[0]`. -/
def getopt (argv : List Bytes) : List Opt :=
  (Getopt.options (fun ch => (optWithArg ch).isSome) none argv).map optOf

/-- The variables `parse_args` collects the command line in. -/
structure Cli where
  confFile : Option Bytes := none
  cliPort : Int := -1
  cliThreads : Int := -1
  cliConns : Int := -1
  cliVerbose : Int := 0
  cliBind : Option Bytes := none
  cliLogFile : Option Bytes := none

/-- The option loop of `parse_args`; an error is the exit status. -/
def parseOpts (cli : Cli) : List Opt → Except Int Cli
  | [] => .ok cli
  | .f arg :: rest => parseOpts { cli with confFile := some arg } rest
  | .p arg :: rest => parseOpts { cli with cliPort := atoi arg } rest
  | .b arg :: rest => parseOpts { cli with cliBind := some arg } rest
  | .t arg :: rest => parseOpts { cli with cliThreads := atoi arg } rest
  | .c arg :: rest => parseOpts { cli with cliConns := atoi arg } rest
  | .l arg :: rest => parseOpts { cli with cliLogFile := some arg } rest
  | .v :: rest => parseOpts { cli with cliVerbose := 1 } rest
  | .h :: _ => .error 0
  | .other :: _ => .error 1

/-- The clamps at the end of `parse_args`: `MINIWEB_MAX_CONNECTIONS` and
`MINIWEB_REQUEST_BUFFER_SIZE` are 4096 and 16384. -/
def clampConf (conf : Conf) : Conf :=
  let conf := if conf.threads < 1 then { conf with threads := 1 } else conf
  let conf := if conf.threads > threadPoolSize then { conf with threads := threadPoolSize } else conf
  let conf := if conf.maxConns > 4096 then { conf with maxConns := 4096 } else conf
  if conf.maxReqSize > 16384 then { conf with maxReqSize := 16384 } else conf

/-- `parse_args`: the configuration of a start-up that does not exit. -/
def parseArgs (env : StartEnv) (argv : List Bytes) : Except Int Conf :=
  match parseOpts {} (getopt argv) with
  | .error status => .error status
  | .ok cli =>
    match confLoad env (confDefaults env.cores) cli.confFile with
    | .error _ => .error 1
    | .ok conf =>
      .ok (clampConf (confApplyCli conf cli.cliPort cli.cliBind cli.cliThreads cli.cliConns
        cli.cliLogFile cli.cliVerbose))

end Miniweb.Core
