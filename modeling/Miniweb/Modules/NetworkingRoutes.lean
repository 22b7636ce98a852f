import Miniweb.Modules.Networking

/-! `networking_get_routes` of `src/modules/networking/networking_module.c`: the routing messages
of the kernel as rows. The kernel's memory behind a header is a function of the offset, so a
pointer that has gone astray reads what stands there. -/
namespace Miniweb.Modules

open Miniweb.Lib.CString

/-- `RTM_VERSION`, `RTM_ADD` and `RTM_GET`. -/
abbrev rtmVersion : UInt8 := 5

@[inherit_doc rtmVersion]
abbrev rtmAdd : UInt8 := 1

@[inherit_doc rtmVersion]
abbrev rtmGet : UInt8 := 4

/-- `RTA_DST`, `RTA_GATEWAY` and `RTA_NETMASK`. -/
abbrev rtaDst : UInt32 := 0x1

@[inherit_doc rtaDst]
abbrev rtaGateway : UInt32 := 0x2

@[inherit_doc rtaDst]
abbrev rtaNetmask : UInt32 := 0x4

/-- `AF_INET`, `AF_INET6` and `AF_LINK`. -/
abbrev afInet : UInt8 := 2

@[inherit_doc afInet]
abbrev afInet6 : UInt8 := 24

@[inherit_doc afInet]
abbrev afLink : UInt8 := 18

/-- `struct rt_msghdr`, the members that are read, and the bytes from `rtm + 1` on. -/
structure RtMsghdr where
  version : UInt8
  type : UInt8
  addrs : UInt32
  index : UInt16
  flags : UInt32
  memory : Nat → UInt8

/-- What the function asks of the outside: `inet_ntop` for the 4 and the 16 bytes of an address,
and `if_indextoname`. -/
structure RoutesEnv where
  inetNtop : Bytes → Bytes
  inetNtop6 : Bytes → Bytes
  ifIndextoname : UInt16 → Option Bytes

/-- `sa->sa_family`. -/
def saFamily (memory : Nat → UInt8) (sa : Nat) : UInt8 := memory (sa + 1)

/-- `SA_SIZE`, with `sa->sa_len` at `sa`. -/
def saSize (memory : Nat → UInt8) (sa : Nat) : Nat :=
  if memory sa = 0 then 16 else (memory sa).toNat

/-- So many bytes at an offset. -/
def bytesAt (memory : Nat → UInt8) (offset n : Nat) : Bytes :=
  (List.range n).map fun i => memory (offset + i)

/-- `sin_addr` and `sin6_addr`. -/
def sinAddr (memory : Nat → UInt8) (sa : Nat) : Bytes := bytesAt memory (sa + 4) 4

@[inherit_doc sinAddr]
def sin6Addr (memory : Nat → UInt8) (sa : Nat) : Bytes := bytesAt memory (sa + 8) 16

/-- The text of a destination. -/
def destinationText (env : RoutesEnv) (memory : Nat → UInt8) (sa : Nat) : Bytes :=
  if saFamily memory sa = afInet then env.inetNtop (sinAddr memory sa)
  else if saFamily memory sa = afInet6 then env.inetNtop6 (sin6Addr memory sa)
  else lit "-"

/-- The text of a gateway. -/
def gatewayText (env : RoutesEnv) (memory : Nat → UInt8) (sa : Nat) : Bytes :=
  if saFamily memory sa = afInet then env.inetNtop (sinAddr memory sa)
  else if saFamily memory sa = afInet6 then env.inetNtop6 (sin6Addr memory sa)
  else if saFamily memory sa = afLink then lit "link#"
  else lit "-"

/-- The text of a netmask. -/
def netmaskText (env : RoutesEnv) (memory : Nat → UInt8) (sa : Nat) : Bytes :=
  if saFamily memory sa = afInet then env.inetNtop (sinAddr memory sa) else lit "-"

/-- The values of `sa` at which the three are read, where they are. -/
structure RoutePointers where
  destination : Option Nat
  gateway : Option Nat
  netmask : Option Nat
  deriving DecidableEq, Repr

/-- One sockaddr of a message: where it is read, if the message has it, and `sa` behind it. -/
def passSockaddr (rtm : RtMsghdr) (sa : Nat) (bit : UInt32) : Option Nat × Nat :=
  if rtm.addrs &&& bit ≠ 0 then (some sa, sa + saSize rtm.memory sa) else (none, sa)

/-- The walk over the sockaddrs of a message. -/
def routePointers (rtm : RtMsghdr) : RoutePointers :=
  let (destination, sa) := passSockaddr rtm 0 rtaDst
  let (gateway, sa) := passSockaddr rtm sa rtaGateway
  let (netmask, _) := passSockaddr rtm sa rtaNetmask
  { destination, gateway, netmask }

/-- `flags_str`. -/
def flagsText (flags : UInt32) : Bytes :=
  (if flags &&& 0x1 ≠ 0 then lit "U" else []) ++ (if flags &&& 0x2 ≠ 0 then lit "G" else []) ++
    (if flags &&& 0x4 ≠ 0 then lit "H" else []) ++ (if flags &&& 0x800 ≠ 0 then lit "S" else []) ++
    (if flags &&& 0x10 ≠ 0 then lit "D" else [])

/-- A row and its `flags`. -/
structure Route where
  entry : RouteEntry
  flags : UInt32
  deriving DecidableEq, Repr

/-- The row of a message with these pointers, over what the array held; a text that is not written
stays. -/
def fillRoute (env : RoutesEnv) (old : Route) (rtm : RtMsghdr) (sa : RoutePointers) : Route where
  entry := {
    destination := sa.destination.elim old.entry.destination (destinationText env rtm.memory)
    gateway := sa.gateway.elim old.entry.gateway (gatewayText env rtm.memory)
    netmask := sa.netmask.elim old.entry.netmask (netmaskText env rtm.memory)
    interface :=
      if 0 < rtm.index then (env.ifIndextoname rtm.index).getD old.entry.interface
      else old.entry.interface
    flagsStr := flagsText rtm.flags }
  flags := rtm.flags

/-- The messages that are not passed over. -/
def isRouteMessage (rtm : RtMsghdr) : Bool :=
  rtm.version = rtmVersion && (rtm.type = rtmGet || rtm.type = rtmAdd)

/-- The loop over the messages, with `count` rows in the array. -/
def getRoutesFrom (env : RoutesEnv) (old : Nat → Route) (maxRoutes : Int) :
    Nat → List RtMsghdr → List Route
  | _, [] => []
  | count, rtm :: rest =>
    if (count : Int) < maxRoutes then
      if isRouteMessage rtm then
        fillRoute env (old count) rtm (routePointers rtm) ::
          getRoutesFrom env old maxRoutes (count + 1) rest
      else getRoutesFrom env old maxRoutes count rest
    else []

/-- `networking_get_routes`: the rows it writes over what the array held. `none` is a dump that
was not read. -/
def networkingGetRoutes (env : RoutesEnv) (old : Nat → Route) (maxRoutes : Int) :
    Option (List RtMsghdr) → List Route
  | none => []
  | some dump => getRoutesFrom env old maxRoutes 0 dump

end Miniweb.Modules
