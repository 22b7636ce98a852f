import Mathlib
import Miniweb.Modules.NetworkingRoutes

/-! Where a route's texts come from. The kernel pads each sockaddr to a multiple of 8 bytes; the
walk goes on by the length alone, so behind a sockaddr of another length every role is read from
the middle of something else. -/
namespace Miniweb.NetworkingRoutesProofs

open Miniweb.Lib.CString Miniweb.Modules

variable {env : RoutesEnv} {old : Nat → Route} {maxRoutes : Int} {i len : Nat}

/-! ## What the kernel writes -/

/-- A sockaddr: its length and what it holds behind. -/
structure Sockaddr where
  len : UInt8
  family : UInt8
  data : Bytes
  deriving DecidableEq, Repr

def Sockaddr.bytes (sa : Sockaddr) : Bytes := sa.len :: sa.family :: sa.data

/-- The space of a sockaddr: its length up to the next multiple of 8, which is 8 for none. -/
def roundup (len : Nat) : Nat := if len = 0 then 8 else (len + 7) / 8 * 8

/-- The sockaddrs of a message by their bits. -/
abbrev Addresses : Type := Nat → Option Sockaddr

/-- Where the sockaddr of a bit begins: behind those of the lower bits. -/
def offset (addresses : Addresses) : Nat → Nat
  | 0 => 0
  | i + 1 => offset addresses i + (addresses i).elim 0 fun sa => roundup sa.len.toNat

/-- The place of a role's sockaddr. -/
def place (addresses : Addresses) (i : Nat) : Option Nat :=
  (addresses i).map fun _ => offset addresses i

/-- A routing message as the kernel writes it: `rtm_addrs` names the sockaddrs, and they stand
behind the header in the order of their bits, each in its padded space. -/
structure RouteMessage where
  rtm : RtMsghdr
  addresses : Addresses
  named : ∀ i, rtm.addrs.toNat.testBit i = (addresses i).isSome
  written : ∀ i sa, addresses i = some sa →
    bytesAt rtm.memory (offset addresses i) sa.bytes.length = sa.bytes

variable {m : RouteMessage}

/-- The places of the three roles. -/
def RouteMessage.places (m : RouteMessage) : RoutePointers where
  destination := place m.addresses 0
  gateway := place m.addresses 1
  netmask := place m.addresses 2

/-- A length that is its own space. -/
def Whole (sa : Sockaddr) : Prop := 0 < sa.len ∧ sa.len.toNat % 8 = 0

/-- No sockaddr that is not whole stands in front of a role. -/
structure Aligned (m : RouteMessage) : Prop where
  destination : ∀ sa, m.addresses 0 = some sa →
    (m.addresses 1).isSome ∨ (m.addresses 2).isSome → Whole sa
  gateway : ∀ sa, m.addresses 1 = some sa → (m.addresses 2).isSome → Whole sa

/-! ## The walk -/

/-- The test for a bit of `rtm_addrs`. -/
theorem bit_iff (m : RouteMessage) {bit : UInt32} (value : bit.toNat = 2 ^ i) :
    m.rtm.addrs &&& bit ≠ 0 ↔ (m.addresses i).isSome = true := by
  rw [← m.named, ne_eq, ← UInt32.toNat_inj, UInt32.toNat_and, value, Nat.and_two_pow]
  cases m.rtm.addrs.toNat.testBit i with
  | false => simp
  | true => simp

/-- The length is at the place. -/
theorem len_at_place {sa : Sockaddr} (present : m.addresses i = some sa) :
    m.rtm.memory (offset m.addresses i) = sa.len := by
  have written := m.written i sa present
  have first := congrArg List.head? written
  simpa [bytesAt, Sockaddr.bytes, List.range_succ_eq_map] using first

theorem size_eq_roundup_iff {sa : Sockaddr} (present : m.addresses i = some sa) :
    saSize m.rtm.memory (offset m.addresses i) = roundup sa.len.toNat ↔ Whole sa := by
  rw [saSize, len_at_place present, Whole, roundup]
  by_cases none' : sa.len = 0
  · simp [none']
  · have positive : sa.len.toNat ≠ 0 := fun zero => none' (UInt8.toNat_inj.mp zero)
    have positive' : 0 < sa.len := UInt8.pos_iff_ne_zero.mpr none'
    rw [if_neg none', if_neg positive, and_iff_right positive']
    omega

/-- A role is read at `sa` if the message has it, and then `sa` goes on by the length. -/
theorem passSockaddr_eq (m : RouteMessage) (sa : Nat) {bit : UInt32} (value : bit.toNat = 2 ^ i) :
    passSockaddr m.rtm sa bit = ((m.addresses i).map fun _ => sa,
      (m.addresses i).elim sa fun _ => sa + saSize m.rtm.memory sa) := by
  rw [passSockaddr]
  cases present : m.addresses i with
  | none => rw [if_neg (by rw [bit_iff m value, present]; simp)]; rfl
  | some address => rw [if_pos (by rw [bit_iff m value, present]; rfl)]; rfl

/-- From the place of one role the walk comes to that of the next exactly when the sockaddr is
whole. -/
theorem next_place_iff (m : RouteMessage) (i : Nat) :
    ((m.addresses i).elim (offset m.addresses i) fun _ =>
        offset m.addresses i + saSize m.rtm.memory (offset m.addresses i)) =
      offset m.addresses (i + 1) ↔ ∀ sa, m.addresses i = some sa → Whole sa := by
  rw [offset]
  cases present : m.addresses i with
  | none => simp
  | some sa =>
    rw [Option.elim_some, Option.elim_some, Nat.add_left_cancel_iff, size_eq_roundup_iff present]
    simp

/-- The same place, where there is something to be read. -/
theorem map_place_iff (m : RouteMessage) (sa i : Nat) :
    ((m.addresses i).map fun _ => sa) = place m.addresses i ↔
      ((m.addresses i).isSome = true → sa = offset m.addresses i) := by
  rw [place]
  cases m.addresses i with
  | none => simp
  | some address => simp

/-- The walk comes to the places of the roles exactly when nothing that is not whole is in front of
them. -/
theorem routePointers_eq_iff (m : RouteMessage) : routePointers m.rtm = m.places ↔ Aligned m := by
  have first := next_place_iff m 0
  have second := next_place_iff m 1
  have aligned : Aligned m ↔ (∀ sa, m.addresses 0 = some sa →
        (m.addresses 1).isSome = true ∨ (m.addresses 2).isSome = true → Whole sa) ∧
      ∀ sa, m.addresses 1 = some sa → (m.addresses 2).isSome = true → Whole sa :=
    ⟨fun h => ⟨h.destination, h.gateway⟩, fun h => ⟨h.1, h.2⟩⟩
  rw [aligned, routePointers, RouteMessage.places]
  have dst : rtaDst.toNat = 2 ^ 0 := rfl
  have gateway : rtaGateway.toNat = 2 ^ 1 := rfl
  have netmask : rtaNetmask.toNat = 2 ^ 2 := rfl
  simp only [passSockaddr_eq m _ dst, passSockaddr_eq m _ gateway, passSockaddr_eq m _ netmask,
    RoutePointers.mk.injEq, map_place_iff]
  rw [show offset m.addresses 0 = 0 from rfl] at first ⊢
  rw [and_iff_right fun _ => rfl]
  generalize (m.addresses 0).elim 0 (fun _ => 0 + saSize m.rtm.memory 0) = sa at first ⊢
  rw [Nat.zero_add] at first
  cases gateway : m.addresses 1 with
  | none =>
    have same : offset m.addresses 2 = offset m.addresses 1 := by
      rw [offset, gateway]
      rfl
    simp only [same, Option.isSome_none, Bool.false_eq_true, false_imp_iff, true_and, false_or,
      Option.elim_none, reduceCtorEq, implies_true, and_true]
    constructor
    · exact fun read address present masked => first.mp (read masked) address present
    · exact fun whole masked => first.mpr fun address present => whole address present masked
  | some gw =>
    rw [gateway, Option.elim_some] at second
    simp only [Option.isSome_some, true_imp_iff, true_or, Option.elim_some, Option.some.injEq,
      forall_eq'] at second ⊢
    constructor
    · rintro ⟨read, masked⟩
      refine ⟨first.mp read, fun mask => second.mp ?_⟩
      rw [← masked mask, read]
    · rintro ⟨whole, masked⟩
      have read := first.mpr whole
      refine ⟨read, fun mask => ?_⟩
      rw [read]
      exact second.mpr (masked mask)

/-! ## The dump -/

/-- The messages of a dump that become rows. -/
def reported (maxRoutes : Int) (dump : List RouteMessage) : List RouteMessage :=
  (dump.filter (isRouteMessage ·.rtm)).take maxRoutes.toNat

/-- The row a message should become: its texts from the sockaddrs that `rtm_addrs` assigns. -/
def assignedRoute (env : RoutesEnv) (old : Route) (m : RouteMessage) : Route :=
  fillRoute env old m.rtm m.places

/-- The function reports the messages, each in the row of its walk. -/
theorem getRoutes_eq (env : RoutesEnv) (old : Nat → Route) (maxRoutes : Int)
    (dump : List RouteMessage) (count : Nat) :
    getRoutesFrom env old maxRoutes count (dump.map RouteMessage.rtm) =
      (reported (maxRoutes - count) dump).mapIdx fun i m =>
        fillRoute env (old (count + i)) m.rtm (routePointers m.rtm) := by
  induction dump generalizing count with
  | nil => simp [getRoutesFrom, reported]
  | cons m rest ih =>
    rw [List.map_cons, getRoutesFrom, reported, List.filter_cons]
    by_cases room : (count : Int) < maxRoutes
    · obtain ⟨left, more⟩ : ∃ left, (maxRoutes - count).toNat = left + 1 :=
        ⟨(maxRoutes - count).toNat - 1, by omega⟩
      have less : (maxRoutes - (count + 1 : Nat)).toNat = left := by omega
      rw [if_pos room, more]
      split
      · rw [List.take_succ_cons, List.mapIdx_cons, ih, reported, less]
        simp only [Nat.add_zero, Nat.add_assoc, Nat.add_comm 1]
      · rw [ih, reported, more]
    · rw [if_neg room, show (maxRoutes - count).toNat = 0 by omega, List.take_zero]
      rfl

/-- Each reported route is filled from the sockaddrs that `rtm_addrs` assigns to its roles: they
are read at their places, and the rows are the ones they make. -/
structure FilledFromAssigned (env : RoutesEnv) (old : Nat → Route) (maxRoutes : Int)
    (dump : List RouteMessage) : Prop where
  pointers : ∀ m ∈ reported maxRoutes dump, routePointers m.rtm = m.places
  rows : networkingGetRoutes env old maxRoutes (some (dump.map RouteMessage.rtm)) =
    (reported maxRoutes dump).mapIdx fun i m => assignedRoute env (old i) m

/-- This is so exactly when in each reported message nothing that is not whole stands in front of a
role. -/
theorem filled_from_assigned_iff (env : RoutesEnv) (old : Nat → Route) (maxRoutes : Int)
    (dump : List RouteMessage) :
    FilledFromAssigned env old maxRoutes dump ↔ ∀ m ∈ reported maxRoutes dump, Aligned m := by
  constructor
  · exact fun filled m member => (routePointers_eq_iff m).mp (filled.pointers m member)
  · intro aligned
    have pointers (m : RouteMessage) (member : m ∈ reported maxRoutes dump) :
        routePointers m.rtm = m.places := (routePointers_eq_iff m).mpr (aligned m member)
    refine ⟨pointers, ?_⟩
    have rows := getRoutes_eq env old maxRoutes dump 0
    simp only [Nat.cast_zero, Int.sub_zero, Nat.zero_add] at rows
    rw [networkingGetRoutes, rows]
    apply List.ext_getElem
    · simp
    · intro i below below'
      rw [List.getElem_mapIdx, List.getElem_mapIdx, pointers _ (List.getElem_mem _), assignedRoute]

/-! ## The kinds of addresses -/

/-- A route with IPv4 addresses is filled as it should be. -/
theorem aligned_of_ipv4 (m : RouteMessage)
    (ipv4 : ∀ i < 2, ∀ sa, m.addresses i = some sa → sa.len = 16) : Aligned m := by
  have whole (i : Nat) (role : i < 2) (sa : Sockaddr) (present : m.addresses i = some sa) :
      Whole sa := by
    rw [Whole, ipv4 i role sa present]
    decide
  exact ⟨fun sa present _ => whole 0 (by omega) sa present,
    fun sa present _ => whole 1 (by omega) sa present⟩

/-- A route to an IPv6 address by way of a gateway is not. -/
theorem not_aligned_of_ipv6 {sa : Sockaddr} (destination : m.addresses 0 = some sa)
    (ipv6 : sa.len = 28) (gateway : (m.addresses 1).isSome = true) : ¬ Aligned m := by
  intro aligned
  have whole := aligned.destination sa destination (Or.inl gateway)
  rw [Whole, ipv6] at whole
  exact absurd whole (by decide)

/-- The IPv6 address that ends in a byte. -/
def ipv6 (last : UInt8) : Sockaddr where
  len := 28
  family := afInet6
  data := List.replicate 21 0 ++ [last] ++ List.replicate 4 0

/-- A route to `::1` by way of `::2`. -/
def ipv6Route : RouteMessage where
  rtm := {
    version := rtmVersion
    type := rtmGet
    addrs := 3
    index := 0
    flags := 0
    memory := fun i =>
      ((ipv6 1).bytes ++ List.replicate 4 0 ++ (ipv6 2).bytes ++ List.replicate 4 0).getD i 0 }
  addresses
    | 0 => some (ipv6 1)
    | 1 => some (ipv6 2)
    | _ => none
  named := by
    rintro (_ | _ | i)
    · rfl
    · rfl
    · exact Nat.testBit_lt_two_pow (lt_of_lt_of_le (by decide : 3 < 2 ^ 2)
        (Nat.pow_le_pow_right (by decide) (by omega)))
  written := by
    rintro (_ | _ | i) sa present
    · cases present
      decide +kernel
    · cases present
      decide +kernel
    · cases present

/-- The addresses as they are, and no interface names. -/
def plainEnv : RoutesEnv where
  inetNtop := id
  inetNtop6 := id
  ifIndextoname := fun _ => none

/-- An empty row. -/
def emptyRoute : Route where
  entry := { destination := [], gateway := [], netmask := [], interface := [], flagsStr := [] }
  flags := 0

/-- Its gateway is read from the padding in front of it. -/
theorem ipv6_gateway_missed :
    ¬ ∀ env old maxRoutes dump, FilledFromAssigned env old maxRoutes dump := by
  intro always
  have filled := always plainEnv (fun _ => emptyRoute) 50 [ipv6Route]
  exact absurd filled.rows (by decide +kernel)

end Miniweb.NetworkingRoutesProofs
