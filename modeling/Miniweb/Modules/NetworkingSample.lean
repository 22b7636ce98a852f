import Miniweb.Modules.NetworkingRoutes

/-! `networking_get_dns_config`, `networking_get_if_stats` and `networking_collect_sample` of
`src/modules/networking/networking_module.c`. What the kernel and the file hold at the time of the
call is an argument. -/
namespace Miniweb.Modules

open Miniweb.Lib.CString

/-! ## The resolver configuration -/

/-- `while (*p == ' ' || *p == '\t') p++`. -/
def skipBlanks (p : Bytes) : Bytes := p.dropWhile isblank

/-- What a line says behind a keyword, up to the newline. -/
def keywordText (keyword p : Bytes) : Bytes :=
  (skipBlanks (p.drop keyword.length)).takeWhile (· ≠ 10)

/-- A round of the loop. -/
def dnsLine (config : DnsConfig) (line : Bytes) : DnsConfig :=
  let p := skipBlanks (cstr line)
  if p.head? = some 35 ∨ p.head? = some 10 ∨ p = [] then config
  else if (lit "nameserver").isPrefixOf p then
    { config with
      nameservers := config.nameservers ++ [strlcpy 46 (keywordText (lit "nameserver") p)] }
  else if (lit "domain").isPrefixOf p then
    { config with domain := strlcpy 256 (keywordText (lit "domain") p) }
  else if (lit "search").isPrefixOf p then
    { config with search := strlcpy 512 (keywordText (lit "search") p) }
  else config

/-- The loop over what `fgets` reads. -/
def readDnsLines (config : DnsConfig) : List Bytes → DnsConfig
  | [] => config
  | line :: rest =>
    if config.nameservers.length < 8 then readDnsLines (dnsLine config line) rest else config

/-- `networking_get_dns_config`: what it returns, and the configuration. `none` is a file that was
not opened. -/
def networkingGetDnsConfig : Option Bytes → Int × DnsConfig
  | none => (-1, ⟨[], [], []⟩)
  | some file => (0, readDnsLines ⟨[], [], []⟩ (fgetsChunks 511 511 [] file))

/-! ## The interfaces -/

/-- `struct if_data`, the counters that are in the document. -/
structure IfData where
  ipackets : UInt64
  ibytes : UInt64
  ierrors : UInt64
  opackets : UInt64
  obytes : UInt64
  oerrors : UInt64
  deriving DecidableEq, Repr

/-- `struct ifaddrs`; of `ifa_addr` the family and what is in the place of `sin_addr`. -/
structure IfAddrs where
  name : Bytes
  addr : Option (UInt8 × Bytes)
  data : Option IfData
  deriving DecidableEq, Repr

/-- The row of an entry of the link layer. -/
def linkRow (ifa : IfAddrs) : Option NetStats :=
  match ifa.addr, ifa.data with
  | some (family, _), some ifd =>
    if family = afLink then
      some {
        interface := strlcpy 16 ifa.name
        ipv4 := lit "-"
        rxPackets := ifd.ipackets
        rxBytes := ifd.ibytes
        rxErrors := ifd.ierrors
        txPackets := ifd.opackets
        txBytes := ifd.obytes
        txErrors := ifd.oerrors }
    else none
  | _, _ => none

/-- The first loop, with `count` rows in the array. -/
def linkRows (maxInterfaces : Int) : Nat → List IfAddrs → List NetStats
  | _, [] => []
  | count, ifa :: rest =>
    if (count : Int) < maxInterfaces then
      match linkRow ifa with
      | some row => row :: linkRows maxInterfaces (count + 1) rest
      | none => linkRows maxInterfaces count rest
    else []

/-- The loop over the rows, for the address of an interface; `inet_ntop` may fail. -/
def placeAddress (inetNtop : Bytes → Option Bytes) (name sinAddr : Bytes) :
    List NetStats → List NetStats
  | [] => []
  | row :: rest =>
    if row.interface ≠ name then row :: placeAddress inetNtop name sinAddr rest
    else if row.ipv4 ≠ lit "-" then row :: rest
    else { row with ipv4 := (inetNtop sinAddr).getD (lit "-") } :: rest

/-- A round of the second loop. -/
def addAddress (inetNtop : Bytes → Option Bytes) (rows : List NetStats) (ifa : IfAddrs) :
    List NetStats :=
  match ifa.addr with
  | some (family, sinAddr) =>
    if family = afInet then placeAddress inetNtop ifa.name sinAddr rows else rows
  | none => rows

/-- `networking_get_if_stats`. `none` is a list that `getifaddrs` did not give. -/
def networkingGetIfStats (inetNtop : Bytes → Option Bytes) (maxInterfaces : Int) :
    Option (List IfAddrs) → List NetStats
  | none => []
  | some ifap => ifap.foldl (addAddress inetNtop) (linkRows maxInterfaces 0 ifap)

/-! ## The sample -/

/-- What a sample is collected from. The texts of `inet_ntop` and `if_indextoname` fit
`INET_ADDRSTRLEN`, `INET6_ADDRSTRLEN` and `IFNAMSIZ`. -/
structure NetworkView extends RoutesEnv where
  now : Int64
  dump : Option (List RtMsghdr)
  resolvConf : Option Bytes
  ifaddrs : Option (List IfAddrs)
  inetNtop_lt : ∀ addr, (inetNtop addr).length < 16
  inetNtop6_lt : ∀ addr, (inetNtop6 addr).length < 46
  ifIndextoname_lt : ∀ index name, ifIndextoname index = some name → name.length < 16

/-- `networking_collect_sample`. -/
def networkingCollectSample (view : NetworkView) : NetworkingSample where
  ts := view.now.toInt
  routes := (networkingGetRoutes view.toRoutesEnv (fun _ => ⟨⟨[], [], [], [], []⟩, 0⟩) 50
    view.dump).map (·.entry)
  dns :=
    let (failed, dns) := networkingGetDnsConfig view.resolvConf
    if failed ≠ 0 then ⟨[], [], []⟩ else dns
  interfaces := networkingGetIfStats (fun addr => some (view.inetNtop addr)) 10 view.ifaddrs

end Miniweb.Modules
