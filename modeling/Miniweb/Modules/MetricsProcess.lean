import Miniweb.Lib.BubbleSort
import Miniweb.Lib.Printf
import Miniweb.Lib.Rounding

/-! `src/modules/metrics/metrics_process.c`: the processes with the highest CPU usage, as the
metrics document lists them and as `metrics_get_top_cpu_processes` returns them. The process
table `metrics_get_procs_snapshot` fetched is an argument. -/
namespace Miniweb.Modules.Metrics

open Miniweb.Lib.CString Miniweb.Lib.Decimal Miniweb.Lib.Printf Miniweb.Lib.Rounding
open Miniweb.Lib.BubbleSort

/-- `p_stat`, as far as it is told apart. -/
inductive ProcStat where
  | szomb
  | other
  deriving DecidableEq, Repr

/-- `struct kinfo_proc`; `p_comm` has 24 bytes. -/
structure KinfoProc where
  pid : Int32
  stat : ProcStat
  pctcpu : UInt32
  comm : Bytes
  uid : UInt32
  comm_fits : comm.length < 24

/-- `ProcessInfo`, the members these functions set; `cpuPercent` counts in 2048ths. -/
structure ProcessInfo where
  user : Bytes
  pid : Int32
  cpuPercent : Nat
  command : Bytes
  deriving DecidableEq, Repr

/-- `getpwuid_r`: the name of a user, where one is found. -/
abbrev Getpwuid : Type := UInt32 → Option Bytes

/-- `metrics_resolve_username` into an array of `size`. -/
def metricsResolveUsername (getpwuid : Getpwuid) (uid : UInt32) (size : Nat) : Bytes :=
  match getpwuid uid with
  | some name => strlcpy size name
  | none => (decimalText uid.toNat).take (size - 1)

/-- `(100.0f * p_pctcpu) / FSCALE` in 2048ths: the division by `FSCALE`, 2048, is exact. -/
def cpuPercent (pctcpu : UInt32) : Nat := roundBinary32 (100 * roundBinary32 pctcpu.toNat)

/-- The row of a process. -/
def processInfo (getpwuid : Getpwuid) (kp : KinfoProc) : ProcessInfo where
  user := metricsResolveUsername getpwuid kp.uid 32
  pid := kp.pid
  cpuPercent := cpuPercent kp.pctcpu
  command := strlcpy 256 kp.comm

/-! ## The section of the document -/

/-- The loop that fills `top_cpu`, with `left` places of the array free. -/
def collectTopCpu (getpwuid : Getpwuid) : Nat → List KinfoProc → List ProcessInfo
  | 0, _ => []
  | _, [] => []
  | left + 1, kp :: rest =>
    if kp.stat = .szomb then collectTopCpu getpwuid (left + 1) rest
    else processInfo getpwuid kp :: collectTopCpu getpwuid left rest

/-- `top_cpu` when it is sorted. -/
def topCpu (getpwuid : Getpwuid) (kp : List KinfoProc) : List ProcessInfo :=
  bubbleSort ProcessInfo.cpuPercent (collectTopCpu getpwuid 10 kp)

/-- The entry of a process. -/
def cpuText (row : ProcessInfo) : Bytes :=
  lit "\x7b\"user\": \"" ++ row.user ++ lit "\", \"pid\": " ++ signedText row.pid.toInt ++
    lit ", \"cpu_percent\": " ++ oneDecimal row.cpuPercent 2048 ++ lit ", \"command\": \"" ++
    row.command ++ lit "\"\x7d"

/-- The loop over `top_cpu` from index `i` on; it wants more than 100 bytes for an entry. -/
def appendTopCpu : Nat → Cursor → List ProcessInfo → Cursor
  | _, c, [] => c
  | i, c, row :: rest =>
    if 100 < c.size then
      let c := if 0 < i then c.print (lit ", ") else c
      appendTopCpu (i + 1) (c.print (cpuText row)) rest
    else c

/-- The part of `metrics_process_append_json_sections` that writes `top_cpu_json`: its calls of
`snprintf`. `none` is a snapshot that failed. -/
def metricsProcessAppendTopCpu (getpwuid : Getpwuid) (size : UInt64) :
    Option (List KinfoProc) → List Call
  | none => (({ size } : Cursor).print (lit "\"top_cpu_processes\": []")).calls
  | some kp =>
    let c : Cursor := { size }
    ((appendTopCpu 0 (c.print (lit "\"top_cpu_processes\": [")) (topCpu getpwuid kp)).print
      (lit "]")).calls

/-! ## The function -/

/-- The loop that fills `temp`. -/
def collectCpu (getpwuid : Getpwuid) : List KinfoProc → List ProcessInfo
  | [] => []
  | kp :: rest =>
    if kp.stat = .szomb then collectCpu getpwuid rest
    else processInfo getpwuid kp :: collectCpu getpwuid rest

/-- `metrics_get_top_cpu_processes`: the number it returns and the rows it writes; `calloc` says
whether `temp` is allocated. -/
def metricsGetTopCpuProcesses (getpwuid : Getpwuid) (calloc : Bool) (snapshot : Option (List KinfoProc))
    (maxProcesses : Int) : Int × List ProcessInfo :=
  match snapshot with
  | none => (0, [])
  | some kp =>
    if !calloc then (0, [])
    else
      let temp := bubbleSort ProcessInfo.cpuPercent (collectCpu getpwuid kp)
      let count := if (temp.length : Int) < maxProcesses then (temp.length : Int) else maxProcesses
      (count, temp.take count.toNat)

end Miniweb.Modules.Metrics
