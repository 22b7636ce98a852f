import Miniweb.Lib.Json
import Miniweb.Lib.Output

/-! `src/modules/networking/networking_module.c`: the JSON document of a networking
sample. The block comes from `malloc` and may hold anything; the text of the timestamp
comes from `localtime_r` and `strftime`. -/
namespace Miniweb.Modules

open Miniweb.Lib.CString Miniweb.Lib.Decimal Miniweb.Lib.Json Miniweb.Lib.Output

/-- `NETWORK_JSON_BUFFER_SIZE`. -/
abbrev networkJsonBufferSize : Nat := 65536

/-- `RouteEntry`, without `flags`, which is not in the document. -/
structure RouteEntry where
  destination : Bytes
  gateway : Bytes
  netmask : Bytes
  interface : Bytes
  flagsStr : Bytes
  deriving DecidableEq, Repr

/-- `DnsConfig`: the first `nameserver_count` name servers. -/
structure DnsConfig where
  nameservers : List Bytes
  domain : Bytes
  search : Bytes
  deriving DecidableEq, Repr

/-- `NetStats`, without the counts of dropped packets, which are not in the document. -/
structure NetStats where
  interface : Bytes
  ipv4 : Bytes
  rxPackets : UInt64
  rxBytes : UInt64
  rxErrors : UInt64
  txPackets : UInt64
  txBytes : UInt64
  txErrors : UInt64
  deriving DecidableEq, Repr

/-- `NetworkingSample`: the first `route_count` routes and `interface_count`
interfaces. -/
structure NetworkingSample where
  ts : Int
  routes : List RouteEntry
  dns : DnsConfig
  interfaces : List NetStats
  deriving DecidableEq, Repr

/-- `networking_json_append` of the text the format makes: -1 is an error. -/
def networkingJsonAppend (dstSize : Nat) (text : Bytes) : Writer Unit := do
  let b ← get
  if dstSize ≤ b.offset then throw ()
  let room := dstSize - b.offset
  let mem := store b.mem b.offset (stored room text)
  if room ≤ text.length then
    set (Buffer.mk mem dstSize)
    throw ()
  set (Buffer.mk mem (b.offset + text.length))

/-- `networking_json_append_escaped`. -/
def networkingJsonAppendEscaped (dstSize : Nat) (src : Option Bytes) : Writer Unit := do
  match src with
  | none => networkingJsonAppend dstSize (lit "null")
  | some src =>
    networkingJsonAppend dstSize (lit "\"")
    src.forM fun c =>
      if c = 34 ∨ c = 92 then networkingJsonAppend dstSize (lit "\\" ++ [c])
      else if c < 0x20 then networkingJsonAppend dstSize (lit "\\u" ++ hex4 c.toNat)
      else networkingJsonAppend dstSize [c]
    networkingJsonAppend dstSize (lit "\"")

/-- The two calls as `networking_build_json` makes them, on its block. -/
def append (text : Bytes) : Writer Unit := networkingJsonAppend networkJsonBufferSize text

@[inherit_doc append]
def appendEscaped (src : Bytes) : Writer Unit :=
  networkingJsonAppendEscaped networkJsonBufferSize (some src)

/-- A round of the loop over the routes. -/
def networkingWriteRoute (route : RouteEntry) (i : Nat) : Writer Unit := do
  append ((if i > 0 then lit "," else lit "") ++ lit "\x7b\"destination\":")
  appendEscaped route.destination
  append (lit ",\"gateway\":")
  appendEscaped route.gateway
  append (lit ",\"netmask\":")
  appendEscaped route.netmask
  append (lit ",\"interface\":")
  appendEscaped route.interface
  append (lit ",\"flags\":")
  appendEscaped route.flagsStr
  append (lit "\x7d")

/-- A round of the loop over the name servers. -/
def networkingWriteNameserver (nameserver : Bytes) (i : Nat) : Writer Unit := do
  append (if i > 0 then lit "," else lit "")
  appendEscaped nameserver

/-- A round of the loop over the interfaces. -/
def networkingWriteStats (stats : NetStats) (i : Nat) : Writer Unit := do
  append ((if i > 0 then lit "," else lit "") ++ lit "\x7b\"interface\":")
  appendEscaped stats.interface
  append (lit ",\"ipv4\":")
  appendEscaped stats.ipv4
  append (lit ",\"rx_packets\":" ++ decimalText stats.rxPackets.toNat ++
    lit ",\"rx_bytes\":" ++ decimalText stats.rxBytes.toNat ++
    lit ",\"rx_errors\":" ++ decimalText stats.rxErrors.toNat ++
    lit ",\"tx_packets\":" ++ decimalText stats.txPackets.toNat ++
    lit ",\"tx_bytes\":" ++ decimalText stats.txBytes.toNat ++
    lit ",\"tx_errors\":" ++ decimalText stats.txErrors.toNat ++ lit "\x7d")

/-- What `networking_build_json` writes into its block. -/
def networkingWriteJson (timestamp : Bytes) (sample : NetworkingSample) : Writer Unit := do
  append (lit "\x7b\"timestamp\":")
  appendEscaped timestamp
  append (lit ",\"timestamp_unix\":" ++ signedText sample.ts ++ lit ",")
  append (lit "\"routes\":[")
  sample.routes.zipIdx.forM fun (route, i) => networkingWriteRoute route i
  append (lit "],")
  append (lit "\"dns\":\x7b\"nameservers\":[")
  sample.dns.nameservers.zipIdx.forM fun (nameserver, i) => networkingWriteNameserver nameserver i
  append (lit "],\"domain\":")
  appendEscaped sample.dns.domain
  append (lit ",\"search\":")
  appendEscaped sample.dns.search
  append (lit "\x7d,")
  append (lit "\"interfaces\":[")
  sample.interfaces.zipIdx.forM fun (stats, i) => networkingWriteStats stats i
  append (lit "]")
  append (lit "\x7d")

/-- `networking_build_json`: the block it was given, or NULL. -/
def networkingBuildJson (block timestamp : Bytes) (sample : NetworkingSample) : Option Bytes :=
  match (networkingWriteJson timestamp sample).run ⟨block, 0⟩ with
  | .ok () b => some b.mem
  | .error () _ => none

end Miniweb.Modules
