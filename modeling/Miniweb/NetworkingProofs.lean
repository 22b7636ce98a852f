import Miniweb.Modules.Networking

/-! The networking document: what is written is the text of one JSON value, which has
the sample in it, and it is written as long as it fits the block. -/
namespace Miniweb.NetworkingProofs

open Miniweb.Lib.CString Miniweb.Lib.Decimal Miniweb.Lib.Json Miniweb.Lib.Output Miniweb.Modules

/-! ## The document as a value -/

def routeValue (route : RouteEntry) : Value :=
  .object [(lit "destination", .string route.destination), (lit "gateway", .string route.gateway),
    (lit "netmask", .string route.netmask), (lit "interface", .string route.interface),
    (lit "flags", .string route.flagsStr)]

def statsValue (stats : NetStats) : Value :=
  .object [(lit "interface", .string stats.interface), (lit "ipv4", .string stats.ipv4),
    (lit "rx_packets", .number stats.rxPackets.toNat), (lit "rx_bytes", .number stats.rxBytes.toNat),
    (lit "rx_errors", .number stats.rxErrors.toNat), (lit "tx_packets", .number stats.txPackets.toNat),
    (lit "tx_bytes", .number stats.txBytes.toNat), (lit "tx_errors", .number stats.txErrors.toNat)]

def dnsValue (dns : DnsConfig) : Value :=
  .object [(lit "nameservers", .array (dns.nameservers.map .string)),
    (lit "domain", .string dns.domain), (lit "search", .string dns.search)]

def sampleValue (timestamp : Bytes) (sample : NetworkingSample) : Value :=
  .object [(lit "timestamp", .string timestamp), (lit "timestamp_unix", .number sample.ts),
    (lit "routes", .array (sample.routes.map routeValue)), (lit "dns", dnsValue sample.dns),
    (lit "interfaces", .array (sample.interfaces.map statsValue))]

/-! ## Reading the sample from a value -/

def stringAt (v : Value) (key : String) : Option Bytes := (v.field (lit key)).bind Value.asString

/-- A number that is an `unsigned long long`. -/
def counter (n : Int) : Option UInt64 :=
  if 0 ≤ n ∧ n.toNat < 2 ^ 64 then some (UInt64.ofNat n.toNat) else none

def counterAt (v : Value) (key : String) : Option UInt64 :=
  ((v.field (lit key)).bind Value.asNumber).bind counter

def arrayAt (v : Value) (key : String) : Option (List Value) :=
  (v.field (lit key)).bind Value.asArray

def recoverRoute (v : Value) : Option RouteEntry := do
  some { destination := ← stringAt v "destination", gateway := ← stringAt v "gateway",
         netmask := ← stringAt v "netmask", interface := ← stringAt v "interface",
         flagsStr := ← stringAt v "flags" }

def recoverStats (v : Value) : Option NetStats := do
  some { interface := ← stringAt v "interface", ipv4 := ← stringAt v "ipv4",
         rxPackets := ← counterAt v "rx_packets", rxBytes := ← counterAt v "rx_bytes",
         rxErrors := ← counterAt v "rx_errors", txPackets := ← counterAt v "tx_packets",
         txBytes := ← counterAt v "tx_bytes", txErrors := ← counterAt v "tx_errors" }

def recoverDns (v : Value) : Option DnsConfig := do
  some { nameservers := ← (← arrayAt v "nameservers").mapM Value.asString,
         domain := ← stringAt v "domain", search := ← stringAt v "search" }

/-- The sample in a document. -/
def recoverSample (v : Value) : Option NetworkingSample := do
  some { ts := ← (v.field (lit "timestamp_unix")).bind Value.asNumber,
         routes := ← (← arrayAt v "routes").mapM recoverRoute,
         dns := ← (v.field (lit "dns")).bind recoverDns,
         interfaces := ← (← arrayAt v "interfaces").mapM recoverStats }

/-- A list is read back item by item. -/
private theorem mapM_map {α : Type} {f : α → Value} {g : Value → Option α}
    (back : ∀ x, g (f x) = some x) (xs : List α) : (xs.map f).mapM g = some xs := by
  induction xs with
  | nil => rfl
  | cons x xs ih => simp [List.mapM_cons, back, ih]

theorem recoverRoute_routeValue (route : RouteEntry) : recoverRoute (routeValue route) = some route :=
  rfl

private theorem counter_toNat (n : UInt64) : counter n.toNat = some n := by
  have inRange : (0 : Int) ≤ n.toNat ∧ (n.toNat : Int).toNat < 2 ^ 64 :=
    ⟨Int.natCast_nonneg _, n.toNat_lt⟩
  rw [counter, if_pos inRange, Int.toNat_natCast, UInt64.ofNat_toNat]

private theorem counterAt_of_field {v : Value} (key : String) {n : UInt64}
    (found : v.field (lit key) = some (.number n.toNat)) : counterAt v key = some n := by
  simp only [counterAt, found, Option.bind_some, Value.asNumber, counter_toNat]

theorem recoverStats_statsValue (stats : NetStats) : recoverStats (statsValue stats) = some stats := by
  have interface : stringAt (statsValue stats) "interface" = some stats.interface := rfl
  have ipv4 : stringAt (statsValue stats) "ipv4" = some stats.ipv4 := rfl
  have rxPackets : counterAt (statsValue stats) "rx_packets" = some stats.rxPackets :=
    counterAt_of_field _ rfl
  have rxBytes : counterAt (statsValue stats) "rx_bytes" = some stats.rxBytes :=
    counterAt_of_field _ rfl
  have rxErrors : counterAt (statsValue stats) "rx_errors" = some stats.rxErrors :=
    counterAt_of_field _ rfl
  have txPackets : counterAt (statsValue stats) "tx_packets" = some stats.txPackets :=
    counterAt_of_field _ rfl
  have txBytes : counterAt (statsValue stats) "tx_bytes" = some stats.txBytes :=
    counterAt_of_field _ rfl
  have txErrors : counterAt (statsValue stats) "tx_errors" = some stats.txErrors :=
    counterAt_of_field _ rfl
  simp only [recoverStats, interface, ipv4, rxPackets, rxBytes, rxErrors, txPackets, txBytes, txErrors,
    Option.bind_eq_bind, Option.bind_some]

theorem recoverDns_dnsValue (dns : DnsConfig) : recoverDns (dnsValue dns) = some dns := by
  have read : recoverDns (dnsValue dns) =
      ((dns.nameservers.map Value.string).mapM Value.asString).bind fun nameservers =>
        some ⟨nameservers, dns.domain, dns.search⟩ := rfl
  rw [read, mapM_map (f := Value.string) (g := Value.asString) fun _ => rfl]
  rfl

theorem recoverSample_sampleValue (timestamp : Bytes) (sample : NetworkingSample) :
    recoverSample (sampleValue timestamp sample) = some sample := by
  have read : recoverSample (sampleValue timestamp sample) =
      ((sample.routes.map routeValue).mapM recoverRoute).bind fun routes =>
        (recoverDns (dnsValue sample.dns)).bind fun dns =>
          ((sample.interfaces.map statsValue).mapM recoverStats).bind fun interfaces =>
            some ⟨sample.ts, routes, dns, interfaces⟩ := rfl
  rw [read, mapM_map recoverRoute_routeValue, recoverDns_dnsValue, mapM_map recoverStats_statsValue]
  rfl

/-! ## What is written -/

variable {size : Nat}

private theorem run_append (b : Buffer) (text : Bytes) (open' : b.offset < size) :
    (networkingJsonAppend size text).run b =
      if size - b.offset ≤ text.length then
        .error () ⟨store b.mem b.offset (stored (size - b.offset) text), size⟩
      else .ok () ⟨store b.mem b.offset (stored (size - b.offset) text), b.offset + text.length⟩ := by
  have notFull : ¬ size ≤ b.offset := by omega
  simp only [networkingJsonAppend, EStateM.run_bind, EStateM.run_get, if_neg notFull]
  split
  · rfl
  · rfl

theorem append_emits (text : Bytes) : Emits size (networkingJsonAppend size text) text := by
  intro b before holds
  have room := holds.room
  rw [← holds.offset] at room
  rw [run_append b text room, ← holds.offset]
  have kept : (store b.mem b.offset (stored (size - b.offset) text)).length = size := by
    rw [length_store, holds.length]
    have := length_stored_le (size - b.offset) text
    rw [holds.length]
    omega
  by_cases fits : b.offset + text.length < size
  · rw [if_pos fits, if_neg (by omega)]
    have whole : stored (size - b.offset) text = text ++ [0] := by
      rw [stored, if_neg (by omega), List.take_of_length_le (by omega)]
    have front : b.mem.take b.offset = before := by
      rw [holds.offset]
      exact List.prefix_iff_eq_take.mp holds.content |>.symm
    have mem : store b.mem b.offset (stored (size - b.offset) text) =
        (before ++ text) ++ 0 :: b.mem.drop (b.offset + (text ++ [0]).length) := by
      simp [store, whole, front]
    have length : b.offset + text.length = (before ++ text).length := by
      rw [List.length_append, holds.offset]
    refine ⟨_, rfl, ⟨kept, length, by omega, ?_⟩, fun _ => ?_⟩
    · rw [mem]
      exact List.prefix_append _ _
    · simp only [Terminated]
      rw [mem, length, List.getElem?_append_right (Nat.le_refl _), Nat.sub_self]
      rfl
  · rw [if_neg fits, if_pos (by omega)]
    exact ⟨_, rfl, kept⟩

/-- A string is written as JSON quotes it. -/
theorem appendEscaped_emits (src : Bytes) :
    Emits size (networkingJsonAppendEscaped size (some src)) (quote src) := by
  have byte (c : UInt8) : Emits size
      (if c = 34 ∨ c = 92 then networkingJsonAppend size (lit "\\" ++ [c])
        else if c < 0x20 then networkingJsonAppend size (lit "\\u" ++ hex4 c.toNat)
        else networkingJsonAppend size [c]) (escape c) := by
    unfold escape
    split
    · exact append_emits _
    · split
      · exact append_emits _
      · exact append_emits _
  exact (append_emits _).bind ((Emits.forM byte src).bind (append_emits _))

private theorem emits_append (text : Bytes) : Emits networkJsonBufferSize (append text) text :=
  append_emits text

private theorem emits_appendEscaped (src : Bytes) :
    Emits networkJsonBufferSize (appendEscaped src) (quote src) :=
  appendEscaped_emits src

/-- What a loop puts in front of each round. -/
private def comma (i : Nat) : Bytes := if i > 0 then [44] else []

private theorem comma_eq (i : Nat) : (if i > 0 then lit "," else lit "") = comma i := by
  unfold comma
  split
  · rfl
  · rfl

private theorem closingBrace : lit "\x7d" = [125] := rfl

/-- The text in front of the value of a member, behind another one. -/
private def keyText (key : String) : Bytes := 44 :: (quote (lit key) ++ [58])

theorem writeRoute_emits (route : RouteEntry) (i : Nat) :
    Emits networkJsonBufferSize (networkingWriteRoute route i) (comma i ++ render (routeValue route)) := by
  have destination : lit "\x7b\"destination\":" = 123 :: (quote (lit "destination") ++ [58]) := rfl
  have gateway : lit ",\"gateway\":" = keyText "gateway" := rfl
  have netmask : lit ",\"netmask\":" = keyText "netmask" := rfl
  have interface : lit ",\"interface\":" = keyText "interface" := rfl
  have flags : lit ",\"flags\":" = keyText "flags" := rfl
  have written : Emits networkJsonBufferSize (networkingWriteRoute route i) _ :=
    (emits_append _).bind <| (emits_appendEscaped _).bind <| (emits_append _).bind <|
      (emits_appendEscaped _).bind <| (emits_append _).bind <| (emits_appendEscaped _).bind <|
      (emits_append _).bind <| (emits_appendEscaped _).bind <| (emits_append _).bind <|
      (emits_appendEscaped _).bind <| emits_append _
  rw [comma_eq, destination, gateway, netmask, interface, flags, closingBrace] at written
  simpa [routeValue, render, renderMembers, keyText] using written

theorem writeNameserver_emits (nameserver : Bytes) (i : Nat) :
    Emits networkJsonBufferSize (networkingWriteNameserver nameserver i)
      (comma i ++ render (.string nameserver)) := by
  have written : Emits networkJsonBufferSize (networkingWriteNameserver nameserver i) _ :=
    (emits_append _).bind (emits_appendEscaped _)
  rw [comma_eq] at written
  simpa [render] using written

/-- A counter has no sign. -/
private theorem signedText_natCast (n : Nat) : signedText n = decimalText n := by
  rw [signedText, if_neg (by omega), Int.natAbs_natCast]

theorem writeStats_emits (stats : NetStats) (i : Nat) :
    Emits networkJsonBufferSize (networkingWriteStats stats i) (comma i ++ render (statsValue stats)) := by
  have interface : lit "\x7b\"interface\":" = 123 :: (quote (lit "interface") ++ [58]) := rfl
  have ipv4 : lit ",\"ipv4\":" = keyText "ipv4" := rfl
  have rxPackets : lit ",\"rx_packets\":" = keyText "rx_packets" := rfl
  have rxBytes : lit ",\"rx_bytes\":" = keyText "rx_bytes" := rfl
  have rxErrors : lit ",\"rx_errors\":" = keyText "rx_errors" := rfl
  have txPackets : lit ",\"tx_packets\":" = keyText "tx_packets" := rfl
  have txBytes : lit ",\"tx_bytes\":" = keyText "tx_bytes" := rfl
  have txErrors : lit ",\"tx_errors\":" = keyText "tx_errors" := rfl
  have written : Emits networkJsonBufferSize (networkingWriteStats stats i) _ :=
    (emits_append _).bind <| (emits_appendEscaped _).bind <| (emits_append _).bind <|
      (emits_appendEscaped _).bind <| emits_append _
  rw [comma_eq, interface, ipv4, rxPackets, rxBytes, rxErrors, txPackets, txBytes, txErrors, closingBrace]
    at written
  simpa [statsValue, render, renderMembers, keyText, signedText_natCast] using written

/-- A loop writes the items of an array. -/
private theorem emits_items {α : Type} {f : α → Nat → Writer Unit} {value : α → Value}
    (round : ∀ x i, Emits networkJsonBufferSize (f x i) (comma i ++ render (value x))) (xs : List α) :
    Emits networkJsonBufferSize (xs.zipIdx.forM fun (x, i) => f x i)
      (separated ((xs.map value).map render)) := by
  have rounds : Emits networkJsonBufferSize (xs.zipIdx.forM fun (x, i) => f x i)
      (xs.zipIdx.flatMap fun (x, i) => comma i ++ render (value x)) :=
    Emits.forM (fun (x, i) => round x i) xs.zipIdx
  have joined := separated_map xs fun x => render (value x)
  simp only [comma] at rounds
  rw [joined] at rounds
  rw [List.map_map]
  exact rounds

/-- Everything that is written is the text of the document. -/
theorem writeJson_emits (timestamp : Bytes) (sample : NetworkingSample) :
    Emits networkJsonBufferSize (networkingWriteJson timestamp sample)
      (render (sampleValue timestamp sample)) := by
  have stamp : lit "\x7b\"timestamp\":" = 123 :: (quote (lit "timestamp") ++ [58]) := rfl
  have unix : lit ",\"timestamp_unix\":" = keyText "timestamp_unix" := rfl
  have comma' : lit "," = [44] := rfl
  have routes : lit "\"routes\":[" = quote (lit "routes") ++ [58, 91] := rfl
  have close : lit "]," = [93, 44] := rfl
  have dns : lit "\"dns\":\x7b\"nameservers\":[" =
      quote (lit "dns") ++ [58, 123] ++ quote (lit "nameservers") ++ [58, 91] := by decide
  have domain : lit "],\"domain\":" = 93 :: keyText "domain" := rfl
  have search : lit ",\"search\":" = keyText "search" := rfl
  have closeDns : lit "\x7d," = [125, 44] := rfl
  have interfaces : lit "\"interfaces\":[" = quote (lit "interfaces") ++ [58, 91] := rfl
  have bracket : lit "]" = [93] := rfl
  have written : Emits networkJsonBufferSize (networkingWriteJson timestamp sample) _ :=
    (emits_append _).bind <| (emits_appendEscaped _).bind <| (emits_append _).bind <|
      (emits_append _).bind <| (emits_items writeRoute_emits _).bind <| (emits_append _).bind <|
      (emits_append _).bind <| (emits_items writeNameserver_emits _).bind <|
      (emits_append _).bind <| (emits_appendEscaped _).bind <| (emits_append _).bind <|
      (emits_appendEscaped _).bind <| (emits_append _).bind <| (emits_append _).bind <|
      (emits_items writeStats_emits _).bind <| (emits_append _).bind <| emits_append _
  rw [stamp, unix, comma', routes, close, dns, domain, search, closeDns, interfaces, bracket, closingBrace]
    at written
  simpa [sampleValue, dnsValue, render, renderMembers, render_array, keyText] using written

/-- `networking_build_json` returns NULL exactly when the document does not fit the block
with its terminator. Otherwise the string in the block is the document, which is JSON and
has the whole sample in it. Nothing is written outside of the block. -/
theorem buildJson_recovers_sample {block : Bytes} (allocated : block.length = networkJsonBufferSize)
    (timestamp : Bytes) (sample : NetworkingSample) :
    (networkingBuildJson block timestamp sample = none ↔
      networkJsonBufferSize < (render (sampleValue timestamp sample)).length + 1) ∧
    (∀ json, networkingBuildJson block timestamp sample = some json →
      cstr json = render (sampleValue timestamp sample) ∧
        (parse (cstr json)).bind recoverSample = some sample) ∧
    (left (networkingWriteJson timestamp sample) ⟨block, 0⟩).mem.length = networkJsonBufferSize := by
  have nonempty : render (sampleValue timestamp sample) ≠ [] := by
    rw [sampleValue, render]
    exact List.cons_ne_nil _ _
  have ran := (writeJson_emits timestamp sample).run_fresh allocated (by decide) nonempty
  simp only [networkingBuildJson, left]
  by_cases fits : (render (sampleValue timestamp sample)).length < networkJsonBufferSize
  · rw [if_pos fits] at ran
    obtain ⟨b, ran, holds, terminated⟩ := ran
    have text := cstr_of_holds holds terminated (zero_not_mem_render _)
    rw [ran]
    refine ⟨⟨fun null => absurd null (Option.some_ne_none _), fun tooLong => by omega⟩, ?_,
      holds.length⟩
    rintro json ⟨⟩
    refine ⟨text, ?_⟩
    rw [text, parse_render, Option.bind_some, recoverSample_sampleValue]
  · rw [if_neg fits] at ran
    obtain ⟨b, ran, inside⟩ := ran
    rw [ran]
    exact ⟨⟨fun _ => by omega, fun _ => rfl⟩,
      fun _ built => absurd built.symm (Option.some_ne_none _), inside⟩

/-- A sample with one route, whose gateway needs an escape, and nothing else. -/
def oneRoute : NetworkingSample where
  ts := -1
  routes := [⟨lit "default", lit "a\"b", lit "", lit "em0", lit "UG"⟩]
  dns := ⟨[], [], []⟩
  interfaces := []

theorem buildJson_recovers_oneRoute :
    ∃ json, networkingBuildJson (List.replicate 65536 255) (lit "unknown") oneRoute = some json ∧
      (parse (cstr json)).bind recoverSample = some oneRoute := by
  have allocated : (List.replicate 65536 (255 : UInt8)).length = networkJsonBufferSize :=
    List.length_replicate
  obtain ⟨null, read, _⟩ := buildJson_recovers_sample allocated (lit "unknown") oneRoute
  have short : (render (sampleValue (lit "unknown") oneRoute)).length = 206 := by decide +kernel
  have fits : networkingBuildJson (List.replicate 65536 255) (lit "unknown") oneRoute ≠ none := by
    rw [ne_eq, null, short]
    decide
  obtain ⟨json, built⟩ := Option.ne_none_iff_exists'.mp fits
  exact ⟨json, built, (read json built).2⟩

end Miniweb.NetworkingProofs
