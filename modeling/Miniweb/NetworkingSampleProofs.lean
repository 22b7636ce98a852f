import Miniweb.Lib.Lines
import Miniweb.Lib.UpTo
import Miniweb.Modules.NetworkingSample

/-! What a networking sample says: the resolver configuration as the lines of the file give it, and
one row for each interface, with its first address. -/
namespace Miniweb.NetworkingSampleProofs

open Miniweb.Lib Miniweb.Lib.CString Miniweb.Modules

/-! ## The resolver configuration -/

section Dns

variable {keyword : String} {config : DnsConfig} {line : Bytes}

/-- The text of a line behind a keyword, blanks left out. -/
def valueOf (keyword : String) (line : Bytes) : Option Bytes :=
  let p := skipBlanks (cstr line)
  if lit keyword <+: p then some (skipBlanks (p.drop (lit keyword).length)) else none

/-- Three keywords that no line has two of. -/
theorem keywords_apart {p : Bytes} :
    (lit "nameserver" <+: p → ¬ lit "domain" <+: p ∧ ¬ lit "search" <+: p) ∧
      (lit "domain" <+: p → ¬ lit "search" <+: p) := by
  have heads : (lit "nameserver").head? = some 110 ∧ (lit "domain").head? = some 100 ∧
      (lit "search").head? = some 115 := by decide
  have first {word : Bytes} {c : UInt8} (head : word.head? = some c) (front : word <+: p) :
      p.head? = some c := by
    obtain ⟨rest, rfl⟩ := front
    cases word with
    | nil => cases head
    | cons d word => exact head
  refine ⟨fun nameserver => ⟨fun domain => ?_, fun search => ?_⟩, fun domain search => ?_⟩
  · exact absurd ((first heads.1 nameserver).symm.trans (first heads.2.1 domain)) (by decide)
  · exact absurd ((first heads.1 nameserver).symm.trans (first heads.2.2 search)) (by decide)
  · exact absurd ((first heads.2.1 domain).symm.trans (first heads.2.2 search)) (by decide)

/-- A keyword does not begin like a comment or an empty line. -/
theorem keyword_speaks {word p : Bytes} {c : UInt8} (head : word.head? = some c) (comment : c ≠ 35)
    (newline : c ≠ 10) (front : word <+: p) :
    ¬ (p.head? = some 35 ∨ p.head? = some 10 ∨ p = []) := by
  obtain ⟨rest, rfl⟩ := front
  cases word with
  | nil => cases head
  | cons d word =>
    cases head
    simp [comment, newline]

/-- A line that has no newline is not cut. -/
theorem keywordText_of_clean {word p : Bytes} (clean : (10 : UInt8) ∉ p) :
    keywordText word p = skipBlanks (p.drop word.length) := by
  refine List.takeWhile_eq_self_iff.mpr fun c member => ?_
  have inside : c ∈ p := List.mem_of_mem_drop ((List.dropWhile_suffix _).subset member)
  have other : c ≠ 10 := by
    rintro rfl
    exact clean inside
  simpa using other

theorem clean_skipBlanks (clean : (10 : UInt8) ∉ line) : (10 : UInt8) ∉ skipBlanks (cstr line) :=
  fun member => clean ((List.takeWhile_prefix _).subset ((List.dropWhile_suffix _).subset member))

/-- What a line says of the configuration. -/
def tell (config : DnsConfig) (line : Bytes) : DnsConfig where
  nameservers := config.nameservers ++ ((valueOf "nameserver" line).map (strlcpy 46)).toList
  domain := ((valueOf "domain" line).map (strlcpy 256)).getD config.domain
  search := ((valueOf "search" line).map (strlcpy 512)).getD config.search

theorem dnsLine_of_clean (clean : (10 : UInt8) ∉ line) (config : DnsConfig) :
    dnsLine config line = tell config line := by
  have clean' := clean_skipBlanks clean
  simp only [dnsLine, tell, valueOf, keywordText_of_clean clean', List.isPrefixOf_iff_prefix]
  generalize skipBlanks (cstr line) = p at clean'
  obtain ⟨apart, apart'⟩ := keywords_apart (p := p)
  by_cases nameserver : lit "nameserver" <+: p
  · rw [if_neg (keyword_speaks (c := 110) (by decide) (by decide) (by decide) nameserver)]
    simp [nameserver, apart nameserver]
  · by_cases domain : lit "domain" <+: p
    · rw [if_neg (keyword_speaks (c := 100) (by decide) (by decide) (by decide) domain)]
      simp [nameserver, domain, apart' domain]
    · by_cases search : lit "search" <+: p
      · rw [if_neg (keyword_speaks (c := 115) (by decide) (by decide) (by decide) search)]
        simp [nameserver, domain, search]
      · simp [nameserver, domain, search]

/-- A newline behind a text is no blank. -/
theorem skipBlanks_newline (p : Bytes) : skipBlanks (p ++ [10]) = skipBlanks p ++ [10] := by
  rw [skipBlanks, skipBlanks, List.dropWhile_append]
  split
  · rename_i nothing
    rw [List.isEmpty_iff.mp nothing]
    rfl
  · rfl

theorem keywordText_newline {word p : Bytes} (front : word <+: p) :
    keywordText word (p ++ [10]) = keywordText word p := by
  rw [keywordText, keywordText, List.drop_append_of_le_length front.length_le, skipBlanks_newline,
    List.takeWhile_append]
  split
  · rename_i whole
    rw [(List.takeWhile_prefix _).eq_of_length whole]
    simp
  · rfl

theorem keyword_newline {word p : Bytes} (clean : (10 : UInt8) ∉ word) :
    word <+: p ++ [10] ↔ word <+: p := by
  rw [List.prefix_concat_iff]
  refine or_iff_right fun same => clean ?_
  rw [same]
  exact List.mem_append_right p List.mem_cons_self

/-- The newline at the end of a line says nothing. -/
theorem dnsLine_newline (config : DnsConfig) (line : Bytes) :
    dnsLine config (line ++ [10]) = dnsLine config line := by
  rcases cstr_append line [10] with same | ⟨whole, longer⟩
  · rw [dnsLine, same, dnsLine]
  · rw [show cstr [10] = [10] from rfl] at longer
    simp only [dnsLine, longer, whole, skipBlanks_newline, List.isPrefixOf_iff_prefix]
    generalize skipBlanks line = p
    by_cases empty : p = []
    · subst empty
      simp
    · have clean : (10 : UInt8) ∉ lit "nameserver" ∧ (10 : UInt8) ∉ lit "domain" ∧
          (10 : UInt8) ∉ lit "search" := by decide
      rw [List.head?_append_of_ne_nil _ empty]
      simp only [List.append_eq_nil_iff, List.cons_ne_self, and_false, empty, or_false,
        keyword_newline clean.1, keyword_newline clean.2.1, keyword_newline clean.2.2]
      split
      · rfl
      · by_cases nameserver : lit "nameserver" <+: p
        · rw [if_pos nameserver, if_pos nameserver, keywordText_newline nameserver]
        · rw [if_neg nameserver, if_neg nameserver]
          by_cases domain : lit "domain" <+: p
          · rw [if_pos domain, if_pos domain, keywordText_newline domain]
          · rw [if_neg domain, if_neg domain]
            by_cases search : lit "search" <+: p
            · rw [if_pos search, if_pos search, keywordText_newline search]
            · rw [if_neg search, if_neg search]

/-- A round of the loop with its test. -/
def dnsRound (config : DnsConfig) (line : Bytes) : DnsConfig :=
  if 0 < 8 - config.nameservers.length then dnsLine config line else config

theorem readDnsLines_eq (config : DnsConfig) (lines : List Bytes) :
    readDnsLines config lines = lines.foldl dnsRound config := by
  induction lines generalizing config with
  | nil => rfl
  | cons line rest ih =>
    rw [readDnsLines, List.foldl_cons, dnsRound]
    by_cases room : config.nameservers.length < 8
    · rw [if_pos room, if_pos (by omega), ih]
    · rw [if_neg room, if_neg (by omega), ← ih]
      cases rest with
      | nil => rfl
      | cons next rest => rw [readDnsLines, if_neg room]

theorem dnsRound_reader : Lines.Reader dnsRound where
  newline config line := by rw [dnsRound, dnsLine_newline, dnsRound]
  empty config := by
    rw [dnsRound]
    split
    · rfl
    · rfl

/-- The lines that are taken notice of: those up to the eighth name server. -/
def heard (file : Bytes) : List Bytes :=
  UpTo.upTo (fun line => (valueOf "nameserver" line).isSome) 8 (file.splitOn 10)

/-- The texts behind a keyword in some lines, as much of each as there is room for. -/
def values (keyword : String) (size : Nat) (lines : List Bytes) : List Bytes :=
  (lines.filterMap (valueOf keyword)).map (strlcpy size)

theorem values_eq (keyword : String) (size : Nat) (lines : List Bytes) :
    values keyword size lines =
      lines.filterMap fun line => (valueOf keyword line).map (strlcpy size) :=
  List.map_filterMap

/-- A file whose lines fit the buffer gives its first eight name servers, and of the lines up to
the eighth the last domain and the last search list. -/
theorem networkingGetDnsConfig_eq (file : Bytes)
    (fit : ∀ line ∈ file.splitOn 10, line.length ≤ 511) :
    networkingGetDnsConfig (some file) = (0, {
      nameservers := (values "nameserver" 46 (file.splitOn 10)).take 8
      domain := (values "domain" 256 (heard file)).getLast?.getD []
      search := (values "search" 512 (heard file)).getLast?.getD [] }) := by
  have read : networkingGetDnsConfig (some file) =
      (0, (file.splitOn 10).foldl dnsRound ⟨[], [], []⟩) := by
    have never : Lines.Stops dnsRound fun _ => false := by
      intro _ _ _ stopped
      cases stopped
    have every : ∀ line ∈ UpTo.upTo (fun _ => false) 1 (file.splitOn 10), line.length ≤ 511 := by
      rwa [UpTo.upTo_of_passes fun _ _ => rfl]
    rw [networkingGetDnsConfig, readDnsLines_eq,
      Lines.foldl_fgetsChunks dnsRound_reader never (by decide) _ file every]
  have rounds : (file.splitOn 10).foldl dnsRound ⟨[], [], []⟩ =
      (file.splitOn 10).foldl
        (fun config line => if 0 < 8 - config.nameservers.length then tell config line else config)
        ⟨[], [], []⟩ := by
    refine List.foldl_ext _ _ _ fun config line member => ?_
    have clean : (10 : UInt8) ∉ line := fun inside => (piece_of_splitOn member).1 inside
    rw [dnsRound, dnsLine_of_clean clean]
  -- a line with a name server takes one of the places
  have takes : ∀ config line, 0 < 8 - config.nameservers.length →
      8 - (tell config line).nameservers.length =
        if (valueOf "nameserver" line).isSome then 8 - config.nameservers.length - 1
        else 8 - config.nameservers.length := by
    intro config line _
    cases found : valueOf "nameserver" line with
    | none => simp [tell, found]
    | some name => simp [tell, found]; omega
  have nameservers : ((heard file).foldl tell ⟨[], [], []⟩).nameservers =
      (values "nameserver" 46 (file.splitOn 10)).take 8 := by
    rw [UpTo.foldl_all DnsConfig.nameservers _ (fun _ _ => rfl), ← values_eq, List.nil_append, values,
      heard, UpTo.filterMap_upTo, List.map_take, values]
  have domain : ((heard file).foldl tell ⟨[], [], []⟩).domain =
      (values "domain" 256 (heard file)).getLast?.getD [] := by
    rw [UpTo.foldl_last DnsConfig.domain _ fun _ _ => rfl, ← values_eq]
  have search : ((heard file).foldl tell ⟨[], [], []⟩).search =
      (values "search" 512 (heard file)).getLast?.getD [] := by
    rw [UpTo.foldl_last DnsConfig.search _ fun _ _ => rfl, ← values_eq]
  rw [read, rounds, UpTo.foldl_while takes, ← nameservers, ← domain, ← search]
  rfl

end Dns

/-! ## The interfaces -/

section Interfaces

variable {inetNtop : Bytes → Option Bytes} {rows : List NetStats} {row : NetStats} {ifa : IfAddrs}

/-- The rows are those of the first entries of the link layer. -/
theorem linkRows_eq (maxInterfaces : Int) (count : Nat) (ifap : List IfAddrs) :
    linkRows maxInterfaces count ifap = (ifap.filterMap linkRow).take (maxInterfaces - count).toNat := by
  induction ifap generalizing count with
  | nil => simp [linkRows]
  | cons ifa rest ih =>
    rw [linkRows, List.filterMap_cons]
    by_cases room : (count : Int) < maxInterfaces
    · rw [if_pos room]
      cases linkRow ifa with
      | none => exact ih count
      | some row =>
        have left : (maxInterfaces - count).toNat = (maxInterfaces - (count + 1 : Nat)).toNat + 1 := by
          omega
        simp only
        rw [ih, left, List.take_succ_cons]
    · rw [if_neg room, Int.toNat_of_nonpos (by omega), List.take_zero]

/-- The text of an IPv4 address of an interface. -/
def addressText (inetNtop : Bytes → Option Bytes) (name : Bytes) (ifa : IfAddrs) : Option Bytes :=
  match ifa.addr with
  | some (family, sinAddr) =>
    if family = afInet ∧ ifa.name = name then some ((inetNtop sinAddr).getD (lit "-")) else none
  | none => none

/-- The first of the addresses of an interface that has a text. -/
def firstAddress (inetNtop : Bytes → Option Bytes) (name : Bytes) (ifap : List IfAddrs) : Bytes :=
  ((ifap.filterMap (addressText inetNtop name)).find? (· ≠ lit "-")).getD (lit "-")

/-- A row that has its address keeps it. -/
def settled (inetNtop : Bytes → Option Bytes) (row : NetStats) (ifap : List IfAddrs) : NetStats :=
  if row.ipv4 = lit "-" then { row with ipv4 := firstAddress inetNtop row.interface ifap } else row

theorem firstAddress_cons (inetNtop : Bytes → Option Bytes) (name : Bytes) (ifa : IfAddrs)
    (rest : List IfAddrs) :
    firstAddress inetNtop name (ifa :: rest) =
      if (addressText inetNtop name ifa).getD (lit "-") = lit "-" then firstAddress inetNtop name rest
      else (addressText inetNtop name ifa).getD (lit "-") := by
  rw [firstAddress, List.filterMap_cons]
  cases addressText inetNtop name ifa with
  | none => rfl
  | some text =>
    by_cases none' : text = lit "-"
    · simp [none', firstAddress]
    · simp [none']

/-- An address of another interface passes a row by. -/
theorem addressText_other {name : Bytes} (other : name ≠ ifa.name) :
    addressText inetNtop name ifa = none := by
  rw [addressText]
  cases ifa.addr with
  | none => rfl
  | some addr => exact if_neg fun both => other both.2.symm

theorem addAddress_other (other : row.interface ≠ ifa.name) :
    addAddress inetNtop (row :: rows) ifa = row :: addAddress inetNtop rows ifa := by
  rw [addAddress, addAddress]
  cases ifa.addr with
  | none => rfl
  | some addr =>
    simp only [placeAddress, if_pos other]
    split
    · rfl
    · rfl

/-- An address of its own a row takes if it has none, and no later row does. -/
theorem addAddress_own (own : row.interface = ifa.name) :
    addAddress inetNtop (row :: rows) ifa =
      (if row.ipv4 = lit "-" then
        { row with ipv4 := (addressText inetNtop ifa.name ifa).getD (lit "-") }
      else row) :: rows := by
  have bare (none' : row.ipv4 = lit "-") : { row with ipv4 := lit "-" } = row := by rw [← none']
  rw [addAddress, addressText]
  cases ifa.addr with
  | none =>
    simp only [Option.getD_none]
    split
    · rename_i none'
      rw [bare none']
    · rfl
  | some addr =>
    simp only [and_true]
    by_cases inet : addr.1 = afInet
    · rw [if_pos inet, if_pos inet, placeAddress, if_neg (by simp [own])]
      by_cases none' : row.ipv4 = lit "-"
      · rw [if_neg (by simp [none']), if_pos none']
        rfl
      · rw [if_pos none', if_neg none']
    · rw [if_neg inet, if_neg inet]
      simp only [Option.getD_none]
      split
      · rename_i none'
        rw [bare none']
      · rfl

theorem settled_nil (row : NetStats) : settled inetNtop row [] = row := by
  rw [settled]
  split
  · rename_i none'
    rw [firstAddress, List.filterMap_nil, List.find?_nil, Option.getD_none, ← none']
  · rfl

theorem settled_own (own : row.interface = ifa.name) (rest : List IfAddrs) :
    settled inetNtop (if row.ipv4 = lit "-" then
        { row with ipv4 := (addressText inetNtop ifa.name ifa).getD (lit "-") }
      else row) rest = settled inetNtop row (ifa :: rest) := by
  rw [settled, settled, firstAddress_cons, ← own]
  by_cases none' : row.ipv4 = lit "-"
  · simp only [if_pos none']
    split
    · rfl
    · rfl
  · simp only [if_neg none']

theorem settled_other (nothing : addressText inetNtop row.interface ifa = none)
    (rest : List IfAddrs) : settled inetNtop row (ifa :: rest) = settled inetNtop row rest := by
  rw [settled, settled, firstAddress_cons, nothing, Option.getD_none, if_pos rfl]

/-- The first row takes the addresses of its interface, the others go on to the rest. -/
theorem foldl_addAddress_cons (row : NetStats) (rows : List NetStats) (ifap : List IfAddrs) :
    ifap.foldl (addAddress inetNtop) (row :: rows) =
      settled inetNtop row ifap ::
        (ifap.filter (·.name ≠ row.interface)).foldl (addAddress inetNtop) rows := by
  induction ifap generalizing row rows with
  | nil => rw [settled_nil]; rfl
  | cons ifa rest ih =>
    rw [List.foldl_cons]
    by_cases own : row.interface = ifa.name
    · rw [addAddress_own own, ih, settled_own own, List.filter_cons_of_neg (by simp [own])]
      congr 4
      split
      · rfl
      · rfl
    · rw [addAddress_other own, ih, settled_other (addressText_other own),
        List.filter_cons_of_pos (by simpa using Ne.symm own), List.foldl_cons]

/-- The interfaces of the first rows have taken their addresses out of the list. -/
theorem foldl_addAddress_eq (rows : List NetStats) (ifap : List IfAddrs) :
    ifap.foldl (addAddress inetNtop) rows =
      rows.mapIdx fun i row => settled inetNtop row
        (ifap.filter fun ifa => ifa.name ∉ (rows.take i).map (·.interface)) := by
  induction rows generalizing ifap with
  | nil =>
    induction ifap with
    | nil => rfl
    | cons ifa rest ih =>
      rw [List.foldl_cons]
      have nothing : addAddress inetNtop [] ifa = [] := by
        rw [addAddress]
        split
        · exact ite_self []
        · rfl
      rw [nothing, ih]
      rfl
  | cons row rows ih =>
    rw [foldl_addAddress_cons, ih, List.mapIdx_cons]
    simp only [List.take_zero, List.map_nil, List.not_mem_nil, not_false_eq_true, decide_true,
      List.filter_true, List.take_succ_cons, List.map_cons, List.mem_cons, not_or, List.filter_filter]
    congr 2
    funext i later
    congr 2
    funext ifa
    rw [Bool.decide_and, Bool.and_comm]

/-- Where an address can still be found once other interfaces have taken theirs. -/
theorem firstAddress_filter (inetNtop : Bytes → Option Bytes) (name : Bytes) (taken : List Bytes)
    (ifap : List IfAddrs) :
    firstAddress inetNtop name (ifap.filter fun ifa => ifa.name ∉ taken) =
      if name ∈ taken then lit "-" else firstAddress inetNtop name ifap := by
  have left : (ifap.filter fun ifa => ifa.name ∉ taken).filterMap (addressText inetNtop name) =
      if name ∈ taken then [] else ifap.filterMap (addressText inetNtop name) := by
    induction ifap with
    | nil => simp
    | cons ifa rest ih =>
      by_cases own : name = ifa.name
      · by_cases gone : name ∈ taken
        · rw [List.filter_cons_of_neg (by simpa [← own] using gone), ih, if_pos gone,
            if_pos gone]
        · rw [List.filter_cons_of_pos (by simpa [← own] using gone), List.filterMap_cons, ih,
            if_neg gone, if_neg gone, List.filterMap_cons]
      · have nothing : addressText inetNtop name ifa = none := addressText_other own
        rw [List.filterMap_cons_none nothing, ← ih, List.filter_cons]
        split
        · rw [List.filterMap_cons_none nothing]
        · rfl
  rw [firstAddress, left]
  split
  · rfl
  · rfl

/-- One row for each of the first entries of the link layer. The first row of an interface has its
first address, every other row has none. -/
theorem networkingGetIfStats_eq (inetNtop : Bytes → Option Bytes) (maxInterfaces : Int)
    (ifap : List IfAddrs) :
    let rows := (ifap.filterMap linkRow).take maxInterfaces.toNat
    networkingGetIfStats inetNtop maxInterfaces (some ifap) = rows.mapIdx fun i row =>
      { row with ipv4 :=
          if row.interface ∈ (rows.take i).map (·.interface) then lit "-"
          else firstAddress inetNtop row.interface ifap } := by
  intro rows
  have first : linkRows maxInterfaces 0 ifap = rows := by
    rw [linkRows_eq, Int.natCast_zero, Int.sub_zero]
  have bare : ∀ row ∈ rows, row.ipv4 = lit "-" := by
    intro row member
    obtain ⟨ifa, _, made⟩ := List.mem_filterMap.mp (List.mem_of_mem_take member)
    unfold linkRow at made
    split at made
    · split at made
      · cases made
        rfl
      · cases made
    · cases made
  rw [networkingGetIfStats, first, foldl_addAddress_eq]
  refine List.ext_getElem (by simp) fun i before _ => ?_
  rw [List.getElem_mapIdx, List.getElem_mapIdx, settled,
    if_pos (bare _ (List.getElem_mem (by simpa using before))), firstAddress_filter]

end Interfaces

end Miniweb.NetworkingSampleProofs
