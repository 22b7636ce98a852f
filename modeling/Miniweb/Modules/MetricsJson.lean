import Miniweb.Lib.Printf
import Miniweb.Lib.Rounding

/-! `src/modules/metrics/metrics_json.c`: the sections of the metrics document that list disks
and ports, and the one with the history. What `metrics_get_disk_usage` and
`metrics_get_top_ports` found is an argument. -/
namespace Miniweb.Modules.Metrics

open Miniweb.Lib.CString Miniweb.Lib.Decimal Miniweb.Lib.Printf Miniweb.Lib.Rounding

/-- `DiskInfo`: each text fits its array. -/
structure DiskInfo where
  device : Bytes
  mountPoint : Bytes
  totalMb : Int64
  usedMb : Int64
  percentUsed : Int32
  device_fits : device.length < 64
  mountPoint_fits : mountPoint.length < 256

/-- `PortInfo`: each text fits its array. -/
structure PortInfo where
  port : Int32
  protocol : Bytes
  connectionCount : Int32
  state : Bytes
  protocol_fits : protocol.length < 16
  state_fits : state.length < 16

/-- The entry of a disk. -/
def diskText (disk : DiskInfo) : Bytes :=
  lit "\x7b\"device\": \"" ++ disk.device ++ lit "\", \"mount\": \"" ++ disk.mountPoint ++
    lit "\", \"total_mb\": " ++ signedText disk.totalMb.toInt ++ lit ", \"used_mb\": " ++
    signedText disk.usedMb.toInt ++ lit ", \"percent\": " ++ signedText disk.percentUsed.toInt ++
    lit "\x7d"

/-- The entry of a port. -/
def portText (port : PortInfo) : Bytes :=
  lit "\x7b\"port\": " ++ signedText port.port.toInt ++ lit ", \"protocol\": \"" ++ port.protocol ++
    lit "\", \"connections\": " ++ signedText port.connectionCount.toInt ++ lit ", \"state\": \"" ++
    port.state ++ lit "\"\x7d"

/-- The loop over the entries from the one with index `i` on. -/
def appendEntries : Nat → Cursor → List Bytes → Cursor
  | _, c, [] => c
  | i, c, entry :: rest =>
    if 0 < c.size then
      let c := if 0 < i then c.print (lit ", ") else c
      appendEntries (i + 1) (c.print entry) rest
    else c

/-- A section: its opening, the entries and a bracket. -/
def appendSection (size : UInt64) (opening : Bytes) (entries : List Bytes) : Cursor :=
  let c : Cursor := { size }
  (appendEntries 0 (c.print opening) entries).print (lit "]")

/-- `metrics_json_append_disk_info`: the calls of `snprintf` it makes. -/
def metricsJsonAppendDiskInfo (size : UInt64) (disks : List DiskInfo) : List Call :=
  (appendSection size (lit "\"disks\": [") (disks.map diskText)).calls

/-- `metrics_json_append_top_ports`: the calls of `snprintf` it makes. -/
def metricsJsonAppendTopPorts (size : UInt64) (ports : List PortInfo) : List Call :=
  (appendSection size (lit "\"top_ports\": [") (ports.map portText)).calls

/-! ## The history -/

/-- What `metrics_take_sample` leaves in `cpu`: a number from 0 to 100. -/
structure CpuUsage where
  num : Nat
  den : Nat
  positive : 0 < den
  bounded : num ≤ 100 * den

/-- `MetricSample`; the tick counters are not printed. -/
structure MetricSample where
  ts : Int64
  cpu : CpuUsage
  memUsed : UInt32
  memTotal : UInt32
  swapUsed : UInt32
  netRx : UInt32
  netTx : UInt32

/-- The entry of a sample. -/
def sampleText (sample : MetricSample) : Bytes :=
  lit "\x7b\"ts\": " ++ signedText sample.ts.toInt ++ lit ", \"cpu\": " ++
    twoDecimals sample.cpu.num sample.cpu.den ++ lit ", \"mem_used_mb\": " ++
    decimalText sample.memUsed.toNat ++ lit ", \"mem_total_mb\": " ++
    decimalText sample.memTotal.toNat ++ lit ", \"swap_used_mb\": " ++
    decimalText sample.swapUsed.toNat ++ lit ", \"net_rx\": " ++ decimalText sample.netRx.toNat ++
    lit ", \"net_tx\": " ++ decimalText sample.netTx.toNat ++ lit "\x7d"

/-- An entry behind the first has a comma. -/
def historyEntry (first : Bool) (sample : MetricSample) : Bytes :=
  (if first then [] else lit ", ") ++ sampleText sample

/-- The loop of `metrics_json_append_history` behind what the buffer holds so far; an entry that
is cut ends it, and is written over. -/
def appendHistory (size : Nat) : Bool → Bytes → List MetricSample → Bytes
  | _, text, [] => text
  | first, text, sample :: rest =>
    let entry := historyEntry first sample
    if size - text.length ≤ entry.length then text
    else appendHistory size false (text ++ entry) rest

/-- `metrics_json_append_history`: the text in the buffer. -/
def metricsJsonAppendHistory (size : Nat) (history : List MetricSample) : Bytes :=
  let opening := lit "\"history\": ["
  if size ≤ opening.length then []
  else
    let text := appendHistory size true opening history
    text ++ (lit "]").take (size - text.length - 1)

end Miniweb.Modules.Metrics
