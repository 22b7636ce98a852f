import Miniweb.Core.Conf

/-! What start-up guarantees about the configuration it accepts. -/
namespace Miniweb.ConfProofs

open Miniweb.Core Miniweb.Lib.CString

variable {env : StartEnv} {conf conf' : Conf}

theorem confParseFile_validated {content : Option Bytes}
    (parsed : confParseFile conf content = .parsed conf') : confValidate conf' = true := by
  cases content with
  | none => cases parsed
  | some content =>
    simp only [confParseFile] at parsed
    split at parsed
    · cases parsed
    · split at parsed
      · rename_i valid
        cases parsed
        exact valid
      · cases parsed

private theorem confLoadFirst_validated {paths : List Bytes} (valid : confValidate conf = true)
    (loaded : confLoadFirst env conf paths = .ok conf') : confValidate conf' = true := by
  induction paths with
  | nil =>
    cases loaded
    exact valid
  | cons path rest ih =>
    simp only [confLoadFirst] at loaded
    split at loaded
    · rename_i parsed
      cases loaded
      exact confParseFile_validated parsed
    · cases loaded
    · exact ih loaded

/-- A load that succeeds from valid values ends with valid values: those it was
given when it found no file, else those of the one file it read. -/
theorem confLoad_validated {path : Option Bytes} (valid : confValidate conf = true)
    (loaded : confLoad env conf path = .ok conf') : confValidate conf' = true := by
  cases path with
  | none => exact confLoadFirst_validated valid loaded
  | some path =>
    simp only [confLoad] at loaded
    split at loaded
    · cases loaded
    · rename_i parsed
      cases loaded
      exact confParseFile_validated parsed
    · cases loaded

theorem confDefaults_validated (cores : Int) : confValidate (confDefaults cores) = true := by
  have threads : 0 < confDefaultThreads cores := by
    unfold confDefaultThreads
    split
    · decide
    · split
      · decide
      · omega
  simp [confValidate, confDefaults]
  exact decide_eq_false (by omega)

/-- The fields the command line may set. -/
structure Overridden (conf : Conf) (cli : Cli) (conf' : Conf) : Prop where
  port : conf'.port = if cli.cliPort > 0 then cli.cliPort else conf.port
  threads : conf'.threads = if cli.cliThreads > 0 then cli.cliThreads else conf.threads
  maxConns : conf'.maxConns = if cli.cliConns > 0 then cli.cliConns else conf.maxConns
  bindAddr : conf'.bindAddr = (cli.cliBind.map (strlcpy confStrMax)).getD conf.bindAddr
  logFile : conf'.logFile = (cli.cliLogFile.map (strlcpy confStrMax)).getD conf.logFile
  verbose : conf'.verbose = if cli.cliVerbose ≠ 0 then cli.cliVerbose else conf.verbose
  connTimeout : conf'.connTimeout = conf.connTimeout
  maxReqSize : conf'.maxReqSize = conf.maxReqSize
  mandocTimeout : conf'.mandocTimeout = conf.mandocTimeout

theorem confApplyCli_overridden (conf : Conf) (cli : Cli) :
    Overridden conf cli (confApplyCli conf cli.cliPort cli.cliBind cli.cliThreads cli.cliConns
      cli.cliLogFile cli.cliVerbose) := by
  cases bind : cli.cliBind <;> cases log : cli.cliLogFile <;> constructor
  all_goals simp only [confApplyCli, bind, log, apply_ite Conf.port, apply_ite Conf.threads,
    apply_ite Conf.maxConns, apply_ite Conf.bindAddr, apply_ite Conf.logFile,
    apply_ite Conf.verbose, apply_ite Conf.connTimeout, apply_ite Conf.maxReqSize,
    apply_ite Conf.mandocTimeout, ite_self, Option.map_none, Option.map_some, Option.getD_none,
    Option.getD_some]

/-- The clamps bound three fields and keep the others. -/
structure Clamped (conf conf' : Conf) : Prop where
  threads : conf'.threads = min (max conf.threads 1) 32
  maxConns : conf'.maxConns = min conf.maxConns 4096
  maxReqSize : conf'.maxReqSize = min conf.maxReqSize 16384
  port : conf'.port = conf.port
  bindAddr : conf'.bindAddr = conf.bindAddr
  logFile : conf'.logFile = conf.logFile
  verbose : conf'.verbose = conf.verbose
  connTimeout : conf'.connTimeout = conf.connTimeout
  mandocTimeout : conf'.mandocTimeout = conf.mandocTimeout

theorem clampConf_clamped (conf : Conf) : Clamped conf (clampConf conf) := by
  have pool : threadPoolSize = 32 := rfl
  constructor
  all_goals simp only [clampConf, apply_ite Conf.port, apply_ite Conf.threads,
    apply_ite Conf.maxConns, apply_ite Conf.bindAddr, apply_ite Conf.logFile,
    apply_ite Conf.verbose, apply_ite Conf.connTimeout, apply_ite Conf.maxReqSize,
    apply_ite Conf.mandocTimeout, ite_self]
  all_goals split_ifs <;> omega

/-- A start-up that does not exit: the options it read, the valid configuration
it loaded, and the one it runs with. -/
theorem parseArgs_cases {argv : List Bytes} (started : parseArgs env argv = .ok conf) :
    ∃ cli loaded overridden, parseOpts {} (getopt argv) = .ok cli ∧
      confValidate loaded = true ∧ Overridden loaded cli overridden ∧ Clamped overridden conf := by
  simp only [parseArgs] at started
  split at started
  · cases started
  · rename_i cli parsed
    split at started
    · cases started
    · rename_i loaded load
      cases started
      exact ⟨cli, loaded, _, parsed, confLoad_validated (confDefaults_validated env.cores) load,
        confApplyCli_overridden loaded cli, clampConf_clamped _⟩

private theorem confValidate_ranges (valid : confValidate conf = true) :
    1 ≤ conf.port ∧ conf.port ≤ 65535 ∧ 1 ≤ conf.threads ∧ 1 ≤ conf.maxConns ∧
      1 ≤ conf.connTimeout ∧ 1 ≤ conf.maxReqSize ∧ 1 ≤ conf.mandocTimeout := by
  simp only [confValidate, Bool.and_eq_true, Bool.not_eq_true', Bool.or_eq_false_iff,
    decide_eq_false_iff_not] at valid
  omega

/-- Every configuration start-up accepts asks for at least one byte and at most
the size of the request buffer. -/
theorem parseArgs_maxReqSize {argv : List Bytes} (started : parseArgs env argv = .ok conf) :
    1 ≤ conf.maxReqSize ∧ conf.maxReqSize ≤ 16384 := by
  obtain ⟨cli, loaded, overridden, _, valid, applied, clamped⟩ := parseArgs_cases started
  have ranges := confValidate_ranges valid
  rw [clamped.maxReqSize, applied.maxReqSize]
  omega

/-- The connection limit of a start-up is never above the size of the pool. -/
theorem parseArgs_maxConns {argv : List Bytes} (started : parseArgs env argv = .ok conf) :
    conf.maxConns ≤ 4096 := by
  obtain ⟨_, _, _, _, _, _, clamped⟩ := parseArgs_cases started
  rw [clamped.maxConns]
  omega

/-- A start-up on four processors with no configuration file. -/
def plainStart : StartEnv := { files := fun _ => none, home := none, cores := 4 }

theorem plainStart_conf : parseArgs plainStart [] = .ok (confDefaults 4) := rfl

/-- What a configuration in effect should satisfy: every number is within its
range, and every positive or present option of the command line is obeyed. -/
structure Effective (cli : Cli) (conf : Conf) : Prop where
  port : 1 ≤ conf.port ∧ conf.port ≤ 65535
  threads : 1 ≤ conf.threads ∧ conf.threads ≤ 32
  maxConns : 1 ≤ conf.maxConns ∧ conf.maxConns ≤ 4096
  maxReqSize : 1 ≤ conf.maxReqSize ∧ conf.maxReqSize ≤ 16384
  connTimeout : 1 ≤ conf.connTimeout
  mandocTimeout : 1 ≤ conf.mandocTimeout
  cliPort : 0 < cli.cliPort → conf.port = cli.cliPort
  cliThreads : 0 < cli.cliThreads → conf.threads = min cli.cliThreads 32
  cliConns : 0 < cli.cliConns → conf.maxConns = min cli.cliConns 4096
  cliBind : ∀ addr, cli.cliBind = some addr → conf.bindAddr = addr.take 255
  cliLogFile : ∀ path, cli.cliLogFile = some path → conf.logFile = path.take 255
  cliVerbose : 0 < cli.cliVerbose → conf.verbose = cli.cliVerbose

/-- Whatever the file says, the configuration of a start-up is as it should be
unless the port of the command line is out of range: that one number is neither
validated nor clamped. -/
theorem effective_iff_cliPort {argv : List Bytes} {cli : Cli}
    (parsed : parseOpts {} (getopt argv) = .ok cli) (started : parseArgs env argv = .ok conf) :
    Effective cli conf ↔ cli.cliPort ≤ 65535 := by
  obtain ⟨cli', loaded, overridden, parsed', valid, applied, clamped⟩ := parseArgs_cases started
  cases Except.ok.inj (parsed.symm.trans parsed')
  have ranges := confValidate_ranges valid
  have port : conf.port = if cli.cliPort > 0 then cli.cliPort else loaded.port :=
    clamped.port.trans applied.port
  constructor
  · intro effective
    by_contra high
    have given := effective.cliPort (by omega)
    have range := effective.port
    omega
  · intro low
    constructor
    · rw [port]
      split <;> omega
    · rw [clamped.threads, applied.threads]
      split <;> omega
    · rw [clamped.maxConns, applied.maxConns]
      split <;> omega
    · rw [clamped.maxReqSize, applied.maxReqSize]
      omega
    · rw [clamped.connTimeout, applied.connTimeout]
      omega
    · rw [clamped.mandocTimeout, applied.mandocTimeout]
      omega
    · intro given
      rw [port, if_pos given]
    · intro given
      rw [clamped.threads, applied.threads, if_pos given]
      omega
    · intro given
      rw [clamped.maxConns, applied.maxConns, if_pos given]
    · intro addr given
      rw [clamped.bindAddr, applied.bindAddr, given]
      rfl
    · intro path given
      rw [clamped.logFile, applied.logFile, given]
      rfl
    · intro given
      rw [clamped.verbose, applied.verbose, if_pos (by omega)]

theorem effective_iff_cliPort_threads :
    ∃ cli conf, parseArgs plainStart [lit "-p", lit "8080", lit "-t64"] = .ok conf ∧
      Effective cli conf ∧ conf.port = 8080 ∧ conf.threads = 32 := by
  have parsed : parseOpts {} (getopt [lit "-p", lit "8080", lit "-t64"]) =
      .ok { cliPort := 8080, cliThreads := 64 } := rfl
  have started : parseArgs plainStart [lit "-p", lit "8080", lit "-t64"] =
      .ok { confDefaults 4 with port := 8080, threads := 32 } := rfl
  exact ⟨_, _, started, (effective_iff_cliPort parsed started).mpr (by decide), rfl, rfl⟩

/-- A port above the range passes through to the configuration. -/
theorem cliPort_out_of_range :
    ∃ conf, parseArgs plainStart [lit "-p", lit "70000"] = .ok conf ∧ ¬ conf.port ≤ 65535 :=
  ⟨{ confDefaults 4 with port := 70000 }, rfl, by decide⟩

end Miniweb.ConfProofs
