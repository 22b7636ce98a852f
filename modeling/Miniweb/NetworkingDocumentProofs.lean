import Miniweb.Lib.JsonWidth
import Miniweb.Lib.Rounding
import Miniweb.NetworkingProofs
import Miniweb.NetworkingSampleProofs

/-! From the machine to the document. A sample that was collected has a document that fits its
block, whatever the kernel and the resolver file hold, and the document tells what they hold. -/
namespace Miniweb.NetworkingDocumentProofs

open Miniweb.Lib.CString Miniweb.Lib.Decimal Miniweb.Lib.Json Miniweb.Lib.Output Miniweb.Lib.Rounding
open Miniweb.Modules Miniweb.NetworkingProofs Miniweb.NetworkingSampleProofs

/-! ## What a sample can hold -/

/-- The texts of a row fit their arrays. -/
structure RouteFits (route : RouteEntry) : Prop where
  destination : route.destination.length ≤ 45
  gateway : route.gateway.length ≤ 45
  netmask : route.netmask.length ≤ 15
  interface : route.interface.length ≤ 15
  flagsStr : route.flagsStr.length ≤ 5

structure DnsFits (dns : DnsConfig) : Prop where
  nameservers : dns.nameservers.length ≤ 8
  nameserver : ∀ name ∈ dns.nameservers, name.length ≤ 45
  domain : dns.domain.length ≤ 255
  search : dns.search.length ≤ 511

structure StatsFits (stats : NetStats) : Prop where
  interface : stats.interface.length ≤ 15
  ipv4 : stats.ipv4.length ≤ 15

structure SampleFits (sample : NetworkingSample) : Prop where
  ts : ∃ now : Int64, sample.ts = now.toInt
  routes : sample.routes.length ≤ 50
  route : ∀ route ∈ sample.routes, RouteFits route
  dns : DnsFits sample.dns
  interfaces : sample.interfaces.length ≤ 10
  stats : ∀ stats ∈ sample.interfaces, StatsFits stats

variable {view : NetworkView} {config : DnsConfig}

/-! ## The routes -/

/-- The row of a message. -/
def routeRow (view : NetworkView) (rtm : RtMsghdr) : RouteEntry :=
  (fillRoute view.toRoutesEnv ⟨⟨[], [], [], [], []⟩, 0⟩ rtm (routePointers rtm)).entry

/-- The rows are those of the first messages about routes. -/
theorem getRoutesFrom_eq (view : NetworkView) (maxRoutes : Int) (count : Nat) (dump : List RtMsghdr) :
    (getRoutesFrom view.toRoutesEnv (fun _ => ⟨⟨[], [], [], [], []⟩, 0⟩) maxRoutes count dump).map
        (·.entry) =
      ((dump.filter isRouteMessage).take (maxRoutes - count).toNat).map (routeRow view) := by
  induction dump generalizing count with
  | nil => simp [getRoutesFrom]
  | cons rtm rest ih =>
    rw [getRoutesFrom, List.filter_cons]
    by_cases room : (count : Int) < maxRoutes
    · rw [if_pos room]
      cases isRouteMessage rtm with
      | false => exact ih count
      | true =>
        have left : (maxRoutes - count).toNat = (maxRoutes - (count + 1 : Nat)).toNat + 1 := by omega
        rw [if_pos rfl, if_pos rfl, left, List.take_succ_cons, List.map_cons, List.map_cons, ih]
        rfl
    · rw [if_neg room, Int.toNat_of_nonpos (by omega), List.take_zero]
      rfl

theorem length_flagsText_le (flags : UInt32) : (flagsText flags).length ≤ 5 := by
  have letter (bit : UInt32) {text : Bytes} (one : text.length = 1) :
      (if flags &&& bit ≠ 0 then text else []).length ≤ 1 := by
    split
    · rw [one]
    · exact Nat.zero_le 1
  have up := letter 0x1 (by decide : (lit "U").length = 1)
  have gateway := letter 0x2 (by decide : (lit "G").length = 1)
  have host := letter 0x4 (by decide : (lit "H").length = 1)
  have static := letter 0x800 (by decide : (lit "S").length = 1)
  have dynamic := letter 0x10 (by decide : (lit "D").length = 1)
  rw [flagsText, List.length_append, List.length_append, List.length_append, List.length_append]
  omega

/-- A text that is written from a pointer, or is not. -/
theorem length_elim_le {pointer : Option Nat} {text : Nat → Bytes} {size : Nat}
    (short : ∀ sa, (text sa).length ≤ size) : (pointer.elim [] text).length ≤ size := by
  cases pointer with
  | none => exact Nat.zero_le size
  | some sa => exact short sa

theorem routeRow_fits (view : NetworkView) (rtm : RtMsghdr) : RouteFits (routeRow view rtm) := by
  have four addr := view.inetNtop_lt addr
  have six addr := view.inetNtop6_lt addr
  have words : (lit "-").length = 1 ∧ (lit "link#").length = 5 := by decide
  refine ⟨length_elim_le fun sa => ?_, length_elim_le fun sa => ?_, length_elim_le fun sa => ?_, ?_,
    length_flagsText_le _⟩
  · unfold destinationText
    split
    · exact (four _).le.trans (by decide)
    · split
      · exact Nat.le_of_lt_succ (six _)
      · rw [words.1]
        decide
  · unfold gatewayText
    split
    · exact (four _).le.trans (by decide)
    · split
      · exact Nat.le_of_lt_succ (six _)
      · split
        · rw [words.2]
          decide
        · rw [words.1]
          decide
  · unfold netmaskText
    split
    · exact Nat.le_of_lt_succ (four _)
    · rw [words.1]
      decide
  · change (if 0 < rtm.index then (view.ifIndextoname rtm.index).getD [] else []).length ≤ 15
    split
    · cases named : view.ifIndextoname rtm.index with
      | none => exact Nat.zero_le 15
      | some name => exact Nat.le_of_lt_succ (view.ifIndextoname_lt _ _ named)
    · exact Nat.zero_le 15

/-! ## The resolver configuration and the interfaces -/

theorem length_strlcpy_le (size : Nat) (s : Bytes) : (strlcpy size s).length ≤ size - 1 := by
  rw [strlcpy, List.length_take]
  exact Nat.min_le_left _ _

/-- Whatever a line is, it leaves texts that fit. -/
theorem dnsLine_fits (fits : DnsFits config) (room : config.nameservers.length < 8) (line : Bytes) :
    DnsFits (dnsLine config line) := by
  unfold dnsLine
  simp only
  split
  · exact fits
  · split
    · refine { fits with nameservers := ?_, nameserver := fun name member => ?_ }
      · rw [List.length_append, List.length_singleton]
        exact room
      · rcases List.mem_append.mp member with before | new
        · exact fits.nameserver name before
        · rw [List.mem_singleton.mp new]
          exact length_strlcpy_le 46 _
    · split
      · exact { fits with domain := length_strlcpy_le 256 _ }
      · split
        · exact { fits with search := length_strlcpy_le 512 _ }
        · exact fits

theorem readDnsLines_fits (fits : DnsFits config) (lines : List Bytes) :
    DnsFits (readDnsLines config lines) := by
  induction lines generalizing config with
  | nil => exact fits
  | cons line rest ih =>
    rw [readDnsLines]
    split
    · rename_i room
      exact ih (dnsLine_fits fits room line)
    · exact fits

theorem dnsFits_nothing : DnsFits ⟨[], [], []⟩ where
  nameservers := Nat.zero_le 8
  nameserver name member := by cases member
  domain := Nat.zero_le 255
  search := Nat.zero_le 511

theorem networkingGetDnsConfig_fits (file : Option Bytes) :
    DnsFits (networkingGetDnsConfig file).2 := by
  cases file with
  | none => exact dnsFits_nothing
  | some file => exact readDnsLines_fits dnsFits_nothing _

theorem linkRow_interface {ifa : IfAddrs} {row : NetStats} (made : linkRow ifa = some row) :
    row.interface.length ≤ 15 := by
  unfold linkRow at made
  split at made
  · split at made
    · cases made
      exact length_strlcpy_le 16 _
    · cases made
  · cases made

/-- An address that is found is one that was converted. -/
theorem length_firstAddress_le {inetNtop : Bytes → Option Bytes} {size : Nat}
    (short : ∀ addr text, inetNtop addr = some text → text.length ≤ size) (one : 1 ≤ size)
    (name : Bytes) (ifap : List IfAddrs) : (firstAddress inetNtop name ifap).length ≤ size := by
  have dash : (lit "-").length = 1 := by decide
  unfold firstAddress
  cases found : (ifap.filterMap (addressText inetNtop name)).find? (· ≠ lit "-") with
  | none => rwa [Option.getD_none, dash]
  | some text =>
    obtain ⟨ifa, _, told⟩ := List.mem_filterMap.mp (List.mem_of_find?_eq_some found)
    unfold addressText at told
    split at told
    · split at told
      · cases told
        rename_i family sinAddr _ _
        cases converted : inetNtop sinAddr with
        | none => rwa [Option.getD_some, Option.getD_none, dash]
        | some text => exact short sinAddr text converted
      · cases told
    · cases told

theorem networkingGetIfStats_fits {inetNtop : Bytes → Option Bytes}
    (short : ∀ addr text, inetNtop addr = some text → text.length ≤ 15) (ifap : Option (List IfAddrs)) :
    (networkingGetIfStats inetNtop 10 ifap).length ≤ 10 ∧
      ∀ stats ∈ networkingGetIfStats inetNtop 10 ifap, StatsFits stats := by
  cases ifap with
  | none => exact ⟨Nat.zero_le 10, fun stats member => by cases member⟩
  | some ifap =>
    rw [networkingGetIfStats_eq]
    refine ⟨?_, fun stats member => ?_⟩
    · rw [List.length_mapIdx, List.length_take]
      exact Nat.min_le_left _ _
    · obtain ⟨i, before, rfl⟩ := List.mem_mapIdx.mp member
      have there := List.mem_of_mem_take (List.getElem_mem before)
      obtain ⟨ifa, _, made⟩ := List.mem_filterMap.mp there
      have name := linkRow_interface made
      refine ⟨name, ?_⟩
      simp only
      split
      · decide
      · exact length_firstAddress_le short (by decide) _ _

theorem routes_eq (view : NetworkView) : (networkingCollectSample view).routes =
    (view.dump.elim [] fun dump => (dump.filter isRouteMessage).take 50).map (routeRow view) := by
  rw [networkingCollectSample]
  cases view.dump with
  | none => rfl
  | some dump => exact getRoutesFrom_eq view 50 0 dump

theorem dns_eq (view : NetworkView) :
    (networkingCollectSample view).dns = (networkingGetDnsConfig view.resolvConf).2 := by
  rw [networkingCollectSample]
  cases view.resolvConf with
  | none => rfl
  | some file => rfl

/-- What is collected fits. -/
theorem networkingCollectSample_fits (view : NetworkView) :
    SampleFits (networkingCollectSample view) := by
  have short : ∀ addr text, some (view.inetNtop addr) = some text → text.length ≤ 15 := by
    rintro addr text ⟨⟩
    exact Nat.le_of_lt_succ (view.inetNtop_lt addr)
  obtain ⟨few, stats⟩ := networkingGetIfStats_fits short view.ifaddrs
  refine ⟨⟨view.now, rfl⟩, ?_, fun route member => ?_, ?_, few, stats⟩
  · rw [routes_eq, List.length_map]
    cases view.dump with
    | none => exact Nat.zero_le 50
    | some dump => exact List.length_take_le 50 _
  · rw [routes_eq] at member
    obtain ⟨rtm, _, rfl⟩ := List.mem_map.mp member
    exact routeRow_fits view rtm
  · rw [dns_eq]
    exact networkingGetDnsConfig_fits view.resolvConf

/-! ## The document -/

/-- A route takes 820 bytes at most. -/
theorem length_routeValue_le {route : RouteEntry} (fits : RouteFits route) :
    (render (routeValue route)).length ≤ 820 := by
  have keys : (quote (lit "destination")).length = 13 ∧ (quote (lit "gateway")).length = 9 ∧
      (quote (lit "netmask")).length = 9 ∧ (quote (lit "interface")).length = 11 ∧
      (quote (lit "flags")).length = 7 := by decide
  have destination := length_render_string_le fits.destination
  have gateway := length_render_string_le fits.gateway
  have netmask := length_render_string_le fits.netmask
  have interface := length_render_string_le fits.interface
  have flagsStr := length_render_string_le fits.flagsStr
  rw [routeValue, length_render_object, membersLength]
  simp only [List.map_cons, List.map_nil, List.sum_cons, List.sum_nil, keys]
  omega

theorem length_counter_le (n : UInt64) : (render (.number n.toNat)).length ≤ 20 := by
  have below := n.toNat_lt
  rw [render, signedText, if_neg (by omega), Int.natAbs_natCast]
  exact length_decimalText_le (by omega)

/-- An interface takes 480 at most. -/
theorem length_statsValue_le {stats : NetStats} (fits : StatsFits stats) :
    (render (statsValue stats)).length ≤ 480 := by
  have keys : (quote (lit "interface")).length = 11 ∧ (quote (lit "ipv4")).length = 6 ∧
      (quote (lit "rx_packets")).length = 12 ∧ (quote (lit "rx_bytes")).length = 10 ∧
      (quote (lit "rx_errors")).length = 11 ∧ (quote (lit "tx_packets")).length = 12 ∧
      (quote (lit "tx_bytes")).length = 10 ∧ (quote (lit "tx_errors")).length = 11 := by decide
  have interface := length_render_string_le fits.interface
  have ipv4 := length_render_string_le fits.ipv4
  have rxPackets := length_counter_le stats.rxPackets
  have rxBytes := length_counter_le stats.rxBytes
  have rxErrors := length_counter_le stats.rxErrors
  have txPackets := length_counter_le stats.txPackets
  have txBytes := length_counter_le stats.txBytes
  have txErrors := length_counter_le stats.txErrors
  rw [statsValue, length_render_object, membersLength]
  simp only [List.map_cons, List.map_nil, List.sum_cons, List.sum_nil, keys]
  omega

/-- Items that fit, of a number that is bounded. -/
theorem length_array_le {α : Type} (value : α → Value) {xs : List α} {size number : Nat}
    (short : ∀ x ∈ xs, (render (value x)).length ≤ size) (few : xs.length ≤ number) :
    (render (.array (xs.map value))).length ≤ number * (size + 1) + 2 := by
  have items : ∀ v ∈ xs.map value, (render v).length ≤ size := by
    intro v member
    obtain ⟨x, there, rfl⟩ := List.mem_map.mp member
    exact short x there
  have whole := length_render_array_le items
  rw [List.length_map] at whole
  have more := Nat.mul_le_mul_right (size + 1) few
  omega

theorem length_dnsValue_le {dns : DnsConfig} (fits : DnsFits dns) :
    (render (dnsValue dns)).length ≤ 6900 := by
  have keys : (quote (lit "nameservers")).length = 13 ∧ (quote (lit "domain")).length = 8 ∧
      (quote (lit "search")).length = 8 := by decide
  have nameservers := length_array_le Value.string
    (fun name member => length_render_string_le (fits.nameserver name member)) fits.nameservers
  have domain := length_render_string_le fits.domain
  have search := length_render_string_le fits.search
  rw [dnsValue, length_render_object, membersLength]
  simp only [List.map_cons, List.map_nil, List.sum_cons, List.sum_nil, keys]
  omega

/-- The document of a sample fits `NETWORK_JSON_BUFFER_SIZE`, whatever the texts are. -/
theorem document_fits {sample : NetworkingSample} (fits : SampleFits sample) {timestamp : Bytes}
    (short : timestamp.length < 64) :
    (render (sampleValue timestamp sample)).length + 1 ≤ networkJsonBufferSize := by
  have keys : (quote (lit "timestamp")).length = 11 ∧ (quote (lit "timestamp_unix")).length = 16 ∧
      (quote (lit "routes")).length = 8 ∧ (quote (lit "dns")).length = 5 ∧
      (quote (lit "interfaces")).length = 12 := by decide
  have stamp := length_render_string_le (Nat.le_of_lt_succ short)
  have unix : (render (.number sample.ts)).length ≤ 20 := by
    obtain ⟨now, ts⟩ := fits.ts
    rw [render, ts]
    exact length_signedText_int64 now
  have routes := length_array_le routeValue
    (fun route member => length_routeValue_le (fits.route route member)) fits.routes
  have dns := length_dnsValue_le fits.dns
  have interfaces := length_array_le statsValue
    (fun stats member => length_statsValue_le (fits.stats stats member)) fits.interfaces
  rw [sampleValue, length_render_object, membersLength]
  simp only [List.map_cons, List.map_nil, List.sum_cons, List.sum_nil, keys]
  change _ ≤ 65536
  omega

/-- Whatever is written is read back, if it fits. -/
theorem networkingBuildJson_of_fits {block : Bytes} (allocated : block.length = networkJsonBufferSize)
    {timestamp : Bytes} {sample : NetworkingSample}
    (fits : (render (sampleValue timestamp sample)).length + 1 ≤ networkJsonBufferSize) :
    ∃ json, networkingBuildJson block timestamp sample = some json ∧
      (parse (cstr json)).bind recoverSample = some sample := by
  have nonempty : render (sampleValue timestamp sample) ≠ [] := by
    rw [sampleValue, render]
    exact List.cons_ne_nil _ _
  have ran := (writeJson_emits timestamp sample).run_fresh allocated (by decide) nonempty
  rw [if_pos (Nat.lt_of_succ_le fits)] at ran
  obtain ⟨b, ran, holds, terminated⟩ := ran
  have text := cstr_of_holds holds terminated (zero_not_mem_render _)
  refine ⟨b.mem, ?_, ?_⟩
  · rw [networkingBuildJson, ran]
  · rw [text, parse_render, Option.bind_some, recoverSample_sampleValue]

/-- The interfaces as `getifaddrs` lists them: one for each of the first ten entries of the link
layer that have counters. The first entry of a name has the first address of that name. -/
def toldInterfaces (view : NetworkView) (ifap : List IfAddrs) : List NetStats :=
  let rows := (ifap.filterMap linkRow).take 10
  rows.mapIdx fun i row =>
    { row with ipv4 :=
        if (rows.take i).any (·.interface == row.interface) then lit "-"
        else firstAddress (fun addr => some (view.inetNtop addr)) row.interface ifap }

/-- The configuration as the lines of the file give it. -/
def toldDns (file : Bytes) : DnsConfig where
  nameservers := (values "nameserver" 46 (file.splitOn 10)).take 8
  domain := (values "domain" 256 (heard file)).getLast?.getD []
  search := (values "search" 512 (heard file)).getLast?.getD []

/-- A sample that was collected always has a document, whatever the kernel and the file hold. Read
back, it tells the time, the first fifty routes of the dump, the first eight name servers and
the last domain and search list in front of the next one, and the first ten interfaces with their
addresses. Bytes from 0x80 on are opaque: they are read back as they are. -/
theorem document_tells_machine (view : NetworkView) {block timestamp : Bytes}
    (allocated : block.length = networkJsonBufferSize) (short : timestamp.length < 64) :
    ∃ json told, networkingBuildJson block timestamp (networkingCollectSample view) = some json ∧
      (parse (cstr json)).bind recoverSample = some told ∧
      told.ts = view.now.toInt ∧
      told.routes = (view.dump.elim [] fun dump =>
        (dump.filter isRouteMessage).take 50).map (routeRow view) ∧
      (∀ file, view.resolvConf = some file → (∀ line ∈ file.splitOn 10, line.length ≤ 511) →
        told.dns = toldDns file) ∧
      told.interfaces = view.ifaddrs.elim [] (toldInterfaces view) := by
  obtain ⟨json, built, read⟩ := networkingBuildJson_of_fits allocated
    (document_fits (networkingCollectSample_fits view) short)
  refine ⟨json, networkingCollectSample view, built, read, rfl, routes_eq view, ?_, ?_⟩
  · intro file opened fit
    rw [dns_eq, opened, networkingGetDnsConfig_eq file fit]
    rfl
  · rw [networkingCollectSample]
    cases view.ifaddrs with
    | none => rfl
    | some ifap =>
      have named : ∀ (rows : List NetStats) (name : Bytes),
          name ∈ rows.map (·.interface) ↔ rows.any (·.interface == name) = true := by simp
      refine (networkingGetIfStats_eq _ 10 ifap).trans ?_
      simp only [named]
      rfl

/-- A machine with one interface that has two addresses. -/
def oneInterface : NetworkView where
  inetNtop addr := ((addr.map fun byte => decimalText byte.toNat).intersperse (lit ".")).flatten.take 15
  inetNtop6 _ := lit "::1"
  ifIndextoname _ := some (lit "em0")
  now := 1700000000
  dump := some []
  resolvConf := some (lit "# by hand\nnameserver 10.0.2.3\n\tdomain example.org\nsearch a b")
  ifaddrs := some [⟨lit "em0", some (afLink, []), some ⟨7, 512, 0, 9, 640, 1⟩⟩,
    ⟨lit "em0", some (afInet, [10, 0, 2, 15]), none⟩, ⟨lit "em0", some (afInet, [10, 0, 2, 16]), none⟩]
  inetNtop_lt addr := Nat.lt_succ_of_le (List.length_take_le 15 _)
  inetNtop6_lt _ := by decide
  ifIndextoname_lt _ name named := by
    cases named
    decide

theorem document_tells_oneInterface :
    ∃ json told, networkingBuildJson (List.replicate 65536 255) (lit "unknown")
        (networkingCollectSample oneInterface) = some json ∧
      (parse (cstr json)).bind recoverSample = some told ∧
      told.dns = ⟨[lit "10.0.2.3"], lit "example.org", lit "a b"⟩ ∧
      told.interfaces = [⟨lit "em0", lit "10.0.2.15", 7, 512, 0, 9, 640, 1⟩] := by
  obtain ⟨json, told, built, read, _, _, dns, interfaces⟩ :=
    document_tells_machine oneInterface (List.length_replicate (n := 65536) (a := 255))
      (by decide : (lit "unknown").length < 64)
  refine ⟨json, told, built, read, ?_, ?_⟩
  · rw [dns _ rfl (by decide +kernel)]
    decide +kernel
  · rw [interfaces]
    decide +kernel

end Miniweb.NetworkingDocumentProofs
