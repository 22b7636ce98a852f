import Miniweb.EscapeProofs
import Miniweb.ManIndexProofs
import Miniweb.Modules.ManApi

/-! What a client reads in the answers of `/api/man`. Every answer that says it is JSON is: the
names of the manual's files go into it as they stand, so this rests on their bytes; all other
texts are checked or escaped. -/
namespace Miniweb.ManApiProofs

open Miniweb.EscapeProofs Miniweb.Lib.CString Miniweb.Lib.Json Miniweb.ManIndexProofs Miniweb.Modules
open Miniweb.Modules.Packages (escapeByte escapeFrom pathMatchesEndpoint)

variable {env : ManApiEnv} {area sect name url path filepath json : Bytes} {names : List Bytes}

/-! ## The order of `strcmp` -/

theorem strcmpLe_trans {a b c : Bytes} (first : strcmpLe a b = true) (second : strcmpLe b c = true) :
    strcmpLe a c = true := by
  induction a generalizing b c with
  | nil => rfl
  | cons x a ih =>
    cases b with
    | nil => cases first
    | cons y b =>
      cases c with
      | nil => cases second
      | cons z c =>
        simp only [strcmpLe, Bool.or_eq_true, decide_eq_true_eq, Bool.and_eq_true, beq_iff_eq]
          at first second ⊢
        rcases first with less | ⟨rfl, first⟩
        · rcases second with less' | ⟨rfl, _⟩
          · exact .inl (UInt8.lt_trans less less')
          · exact .inl less
        · rcases second with less' | ⟨rfl, second⟩
          · exact .inl less'
          · exact .inr ⟨rfl, ih first second⟩

theorem strcmpLe_total (a b : Bytes) : (strcmpLe a b || strcmpLe b a) = true := by
  induction a generalizing b with
  | nil => rfl
  | cons x a ih =>
    cases b with
    | nil => rfl
    | cons y b =>
      have later := ih b
      simp only [strcmpLe, Bool.or_eq_true, decide_eq_true_eq, Bool.and_eq_true, beq_iff_eq] at later ⊢
      rcases lt_trichotomy x.toNat y.toNat with less | same | less
      · exact .inl (.inl less)
      · obtain rfl := UInt8.toNat_inj.mp same
        exact later.imp (fun le => .inr ⟨rfl, le⟩) fun le => .inr ⟨rfl, le⟩
      · exact .inr (.inl less)

/-! ## Texts that need no escape -/

/-- JSON writes the bytes as they are. -/
def Plain (s : Bytes) : Prop := ∀ c ∈ s, 32 ≤ c ∧ c ≠ 34 ∧ c ≠ 92

instance (s : Bytes) : Decidable (Plain s) :=
  inferInstanceAs (Decidable (∀ c ∈ s, 32 ≤ c ∧ c ≠ 34 ∧ c ≠ 92))

theorem quote_of_plain {s : Bytes} (plain : Plain s) : quote s = lit "\"" ++ s ++ lit "\"" := by
  have same : s.flatMap escape = s := by
    conv_rhs => rw [← List.flatMap_singleton' s]
    refine List.flatMap_congr fun c member => ?_
    obtain ⟨shown, notQuote, notBackslash⟩ := plain c member
    rw [escape, if_neg (by simp [notQuote, notBackslash]), if_neg (UInt8.not_lt.mpr shown)]
  rw [quote, same]
  rfl

/-- The escape of the answers agrees with it there. -/
theorem flatMap_escapeByte_of_plain {s : Bytes} (plain : Plain s) : s.flatMap escapeByte = s := by
  conv_rhs => rw [← List.flatMap_singleton' s]
  refine List.flatMap_congr fun c member => ?_
  obtain ⟨shown, notQuote, notBackslash⟩ := plain c member
  have high : ¬ c < 32 := UInt8.not_lt.mpr shown
  unfold escapeByte
  rw [if_neg notQuote, if_neg notBackslash, if_neg, if_neg, if_neg, if_neg, if_neg, if_neg high]
  all_goals
    rintro rfl
    exact high (by decide)

theorem plain_of_token (valid : manIsValidToken name = true) : Plain name := by
  intro c member
  simp only [manIsValidToken, Bool.and_eq_true, List.all_eq_true] at valid
  have accepted := valid.2 c member
  revert accepted
  have checked : ∀ c : Fin 256, isTokenByte (UInt8.ofNat c) = true →
      32 ≤ UInt8.ofNat c ∧ UInt8.ofNat c ≠ 34 ∧ UInt8.ofNat c ≠ 92 := by decide +kernel
  simpa using checked ⟨c.toNat, c.toNat_lt⟩

theorem plain_of_section (valid : manIsValidSection sect = true) : Plain sect := by
  have checked : ∀ c : Fin 256, (isdigit (UInt8.ofNat c) || islower (UInt8.ofNat c)) = true →
      32 ≤ UInt8.ofNat c ∧ UInt8.ofNat c ≠ 34 ∧ UInt8.ofNat c ≠ 92 := by decide +kernel
  have shown : ∀ c : UInt8, (isdigit c || islower c) = true → 32 ≤ c ∧ c ≠ 34 ∧ c ≠ 92 := fun c => by
    simpa using checked ⟨c.toNat, c.toNat_lt⟩
  cases sect with
  | nil => exact fun c member => (by cases member)
  | cons first rest =>
    simp only [manIsValidSection, Bool.and_eq_true, List.all_eq_true] at valid
    intro c member
    rcases List.mem_cons.mp member with rfl | later
    · exact shown c (by rw [valid.1.2, Bool.true_or])
    · exact shown c (by rw [valid.2 c later, Bool.or_true])

/-! ## The pages of a section -/

/-- The names under which the files of a section are listed, in the order of the directory. -/
def manNames (env : ManIndexEnv) (area sect : Bytes) : List Bytes :=
  (env.opendir (manSectionDir area sect)).elim [] fun entries => entries.filterMap (manPageName sect)

/-- What the names take in the document: the bytes, two quotes and a comma each. -/
def namesLength (names : List Bytes) : Nat := (names.map fun name => name.length + 3).sum

/-- The list is sorted and names files of the section, and all of them if there is memory and
the document has room. -/
structure Lists (env : ManIndexEnv) (area sect : Bytes) (names : List Bytes) : Prop where
  sorted : names.Pairwise fun a b => strcmpLe a b = true
  listed : names.Subperm (manNames env area sect)
  all : (∀ n size, env.allocates n size = true) → (manNames env area sect).length ≤ manMaxPages →
    namesLength (manNames env area sect) + 14 < manMaxJsonSize → names.Perm (manNames env area sect)

/-- The loop over the directory keeps a selection of the names, in order. -/
theorem manCollectPages_sublist (env : ManIndexEnv) (sect : Bytes) (calls : Nat) (pages : List Bytes)
    (entries : List Dirent) :
    ∃ kept, kept.Sublist (entries.filterMap (manPageName sect)) ∧
      manCollectPages env sect calls pages entries = pages ++ kept := by
  induction entries generalizing calls pages with
  | nil => exact ⟨[], .refl _, (List.append_nil _).symm⟩
  | cons de rest ih =>
    rw [manCollectPages]
    cases named : manPageName sect de with
    | none =>
      rw [List.filterMap_cons_none named]
      exact ih calls pages
    | some name =>
      rw [List.filterMap_cons_some named]
      simp only
      split
      · split
        · obtain ⟨kept, within, same⟩ := ih (calls + 1) (pages ++ [name])
          exact ⟨name :: kept, within.cons_cons _, by rw [same, List.append_assoc]; rfl⟩
        · obtain ⟨kept, within, same⟩ := ih (calls + 1) pages
          exact ⟨kept, within.cons _, same⟩
      · obtain ⟨kept, within, same⟩ := ih calls pages
        exact ⟨kept, within.cons _, same⟩

/-- With memory and few enough entries it keeps them all. -/
theorem manCollectPages_all {env : ManIndexEnv} (allocates : ∀ n size, env.allocates n size = true)
    (sect : Bytes) (calls : Nat) (pages : List Bytes) (entries : List Dirent)
    (few : pages.length + (entries.filterMap (manPageName sect)).length ≤ manMaxPages) :
    manCollectPages env sect calls pages entries = pages ++ entries.filterMap (manPageName sect) := by
  induction entries generalizing calls pages with
  | nil => exact (List.append_nil _).symm
  | cons de rest ih =>
    rw [manCollectPages]
    cases named : manPageName sect de with
    | none =>
      rw [List.filterMap_cons_none named] at few ⊢
      exact ih calls pages few
    | some name =>
      rw [List.filterMap_cons_some named, List.length_cons] at few
      rw [List.filterMap_cons_some named]
      simp only [allocates, if_true]
      rw [if_pos (by omega), ih (calls + 1) (pages ++ [name])
        (by rw [List.length_append, List.length_singleton]; omega), List.append_assoc]
      rfl

theorem manAppendPages_more_all (json : Bytes)
    (room : json.length + namesLength names + 4 < manMaxJsonSize) :
    manAppendPages json false names = json ++ moreNames names := by
  induction names generalizing json with
  | nil => exact (List.append_nil _).symm
  | cons name names ih =>
    have entry : (lit "," ++ lit "\"" ++ name ++ lit "\"").length = name.length + 3 := by
      simp only [List.length_append, show (lit ",").length = 1 from rfl, show (lit "\"").length = 1 from rfl]
      omega
    have width : namesLength (name :: names) = name.length + 3 + namesLength names := rfl
    have reserve : jsonCloseReserve = 4 := rfl
    rw [manAppendPages]
    simp only [Bool.false_eq_true, if_false]
    rw [if_neg (by omega), ih _ (by rw [List.length_append]; omega), List.append_assoc]
    rfl

/-- The loop over the sorted names writes them all when there is room. -/
theorem manAppendPages_all (room : namesLength names + 14 < manMaxJsonSize) :
    manAppendPages (lit "\x7b\"pages\":[") true names ++ lit "]\x7d" = pagesJson names := by
  cases names with
  | nil => rfl
  | cons name names =>
    have front : (lit "\x7b\"pages\":[").length = 10 := rfl
    have entry : ([] ++ lit "\"" ++ name ++ lit "\"" : Bytes).length = name.length + 2 := by
      simp only [List.length_append, List.length_nil, show (lit "\"").length = 1 from rfl]
      omega
    have width : namesLength (name :: names) = name.length + 3 + namesLength names := rfl
    have reserve : jsonCloseReserve = 4 := rfl
    rw [manAppendPages]
    simp only [if_true]
    rw [if_neg (by omega), manAppendPages_more_all _ (by rw [List.length_append]; omega), pagesJson_cons]
    simp only [List.nil_append]

theorem intercalate_comma (texts : List Bytes) : (lit ",").intercalate texts = separated texts := by
  have comma : lit "," = [44] := rfl
  cases texts with
  | nil => rfl
  | cons text rest =>
    induction rest generalizing text with
    | nil => simp [separated]
    | cons next rest ih =>
      rw [List.intercalate_cons_cons, ih, comma]
      simp [separated]

/-- A list of plain names is the text of its JSON value. -/
theorem pagesJson_eq (plain : ∀ name ∈ names, Plain name) :
    pagesJson names = render (.object [(lit "pages", .array (names.map .string))]) := by
  have quoted : names.map (fun name => lit "\"" ++ name ++ lit "\"") = (names.map .string).map render := by
    rw [List.map_map]
    refine List.map_congr_left fun name member => ?_
    rw [Function.comp_apply, render, quote_of_plain (plain name member)]
  have front : lit "\x7b\"pages\":[" = 123 :: (quote (lit "pages") ++ [58, 91]) := by decide
  have back : lit "]\x7d" = [93, 125] := rfl
  rw [pagesJson, intercalate_comma, quoted, render, render_array, renderMembers, front, back]
  simp only [List.cons_append, List.append_assoc, List.nil_append]

/-- What a client reads in the answer for a section. -/
theorem pages_tell {env : ManIndexEnv} (plain : ∀ name ∈ manNames env area sect, Plain name)
    (replied : manGetSectionPagesJson env area sect = some json) :
    ∃ names, Lists env area sect names ∧
      parse json = some (.object [(lit "pages", .array (names.map .string))]) := by
  rw [manGetSectionPagesJson] at replied
  cases opened : env.opendir (manSectionDir area sect) with
  | none =>
    simp only [opened] at replied
    split at replied
    · cases replied
      have nothing : manNames env area sect = [] := by rw [manNames, opened]; rfl
      refine ⟨[], ⟨.nil, List.nil_subperm, fun _ _ _ => by rw [nothing]⟩, ?_⟩
      rw [show manNoPages = pagesJson [] from rfl, pagesJson_eq (by simp), parse_render]
    · cases replied
  | some entries =>
    have here : manNames env area sect = entries.filterMap (manPageName sect) := by
      rw [manNames, opened]
      rfl
    simp only [opened] at replied
    split at replied
    · cases replied
      obtain ⟨kept, within, collected⟩ := manCollectPages_sublist env sect 1 [] entries
      rw [List.nil_append] at collected
      have order : (kept.mergeSort strcmpLe).Pairwise fun a b => strcmpLe a b = true := by
        apply List.pairwise_mergeSort
        · exact fun _ _ _ => strcmpLe_trans
        · exact strcmpLe_total
      have read : ∀ names : List Bytes, names.Sublist (kept.mergeSort strcmpLe) →
          parse (pagesJson names) = some (.object [(lit "pages", .array (names.map .string))]) := by
        intro names selected
        rw [pagesJson_eq fun name member => plain name ?_, parse_render]
        rw [here]
        exact within.subset (List.mem_mergeSort.mp (selected.subset member))
      have few : ∀ names : List Bytes, names.Sublist (kept.mergeSort strcmpLe) →
          names.Subperm (manNames env area sect) := fun names selected => by
        rw [here]
        exact selected.subperm.trans ((List.mergeSort_perm kept strcmpLe).subperm.trans within.subperm)
      rw [collected]
      by_cases room : namesLength (kept.mergeSort strcmpLe) + 14 < manMaxJsonSize
      · refine ⟨kept.mergeSort strcmpLe, ⟨order, few _ (.refl _), fun allocates count _ => ?_⟩, ?_⟩
        · rw [here] at count ⊢
          rw [manCollectPages_all allocates sect 1 [] entries (by simpa using count),
            List.nil_append] at collected
          rw [← collected]
          exact List.mergeSort_perm _ _
        · rw [manAppendPages_all room]
          exact read _ (.refl _)
      · obtain ⟨written, selected, text⟩ := manAppendPages_pagesJson (kept.mergeSort strcmpLe)
        refine ⟨written, ⟨order.sublist selected, few _ selected, fun allocates count wide => ?_⟩, ?_⟩
        · rw [here] at count wide
          rw [manCollectPages_all allocates sect 1 [] entries (by simpa using count),
            List.nil_append] at collected
          have same : namesLength (kept.mergeSort strcmpLe) =
              namesLength (entries.filterMap (manPageName sect)) := by
            rw [← collected]
            exact ((List.mergeSort_perm _ _).map _).sum_eq
          omega
        · rw [text]
          exact read _ selected
    · cases replied

/-! ## The file of a page -/

variable {shown : Bytes}

/-- A path that is found begins with a slash. -/
theorem manResolvePath_slash {search : ManSearchEnv}
    (resolved : (manResolvePath search name sect).1 = some filepath) : filepath.head? = some 47 := by
  rw [manResolvePath] at resolved
  split at resolved
  · cases resolved
  · simp only at resolved
    split at resolved
    · obtain ⟨output, _, selected⟩ := Option.bind_eq_some_iff.mp resolved
      have member : filepath ∈ (tokens 32 ((cstr output).map fun c =>
          if c = 10 || c = 13 || c = 9 then 32 else c)).filter fun tok => tok.head? = some 47 := by
        rw [selectResolvedManPath] at selected
        rcases Option.or_eq_some_iff.mp selected with found | ⟨_, first⟩
        · exact List.mem_of_find?_eq_some found
        · exact List.mem_of_mem_head? first
      exact of_decide_eq_true (List.mem_filter.mp member).2
    · cases resolved

/-- The section a page is found in is valid, and its file has a path. -/
theorem manFindPage_found {search : ManSearchEnv} {found : Bytes}
    (here : manFindPage search name sect = some (found, filepath)) :
    manIsValidSection found = true ∧ filepath.head? = some 47 := by
  rw [manFindPage] at here
  obtain ⟨tried, _, resolved⟩ := List.exists_of_findSome?_eq_some here
  obtain ⟨path, resolved, same⟩ := Option.map_eq_some_iff.mp resolved
  cases same
  refine ⟨?_, manResolvePath_slash resolved⟩
  rw [manResolvePath] at resolved
  split at resolved
  · cases resolved
  · rename_i accepted
    simp only [Bool.or_eq_true, Bool.not_eq_true', not_or, Bool.not_eq_false] at accepted
    exact accepted.2

theorem plain_resolvedSection (valid : manIsValidSection sect = true) :
    Plain (manResolvedSection sect filepath) := by
  rw [manResolvedSection]
  cases parsed : manParseSectionFromFilename
      ((strrchr 47 filepath).elim filepath fun slash => filepath.drop (slash + 1)) 16 with
  | none => exact plain_of_section valid
  | some resolved => exact plain_of_section (validSection_of_parse (by decide) parsed)

theorem plain_areaFromPath : Plain (manAreaFromPath filepath) := by
  rw [manAreaFromPath]
  split
  · decide +kernel
  · split
    · decide +kernel
    · decide +kernel

/-- What is left of a path: all of it, unless it is the root or its block is missing. -/
def shownPath (env : ManApiEnv) (filepath : Bytes) : Bytes :=
  if env.malloc .escaped = true ∧ filepath ≠ lit "/" then filepath else []

/-- There is memory for the escaped path, or at least for an empty one. -/
def Escapes (env : ManApiEnv) : Prop :=
  env.malloc .escaped = true ∨ env.malloc .empty = true ∨ env.malloc .emptyAgain = true

theorem manEscapedPath_eq (escapes : Escapes env) (absolute : filepath.head? = some 47) :
    manEscapedPath env filepath = some ((shownPath env filepath).flatMap escapeByte) := by
  rw [manEscapedPath, shownPath]
  by_cases allocated : env.malloc .escaped = true
  · rw [if_pos allocated]
    obtain ⟨k, bound, text, whole⟩ := escapeFrom_whole filepath
    rw [text]
    obtain ⟨rest, rfl⟩ := List.head?_eq_some_iff.mp absolute
    cases rest with
    | nil =>
      have cut : k ≠ [47].length := fun all => absurd (whole.mp all) (by decide)
      have none : k = 0 := by
        simp only [List.length_singleton] at cut bound
        omega
      rw [none, if_neg (by simp [lit_slash])]
      rfl
    | cons next rest =>
      have kept : KeptWhole (47 :: next :: rest) := by
        refine .inr ?_
        rw [List.dropLast_cons_cons, List.all_cons]
        rfl
      rw [whole.mpr kept, List.take_length, if_pos ⟨allocated, by simp [lit_slash]⟩]
  · have small : (env.malloc .empty || env.malloc .emptyAgain) = true :=
      Bool.or_eq_true _ _ |>.mpr (escapes.resolve_left allocated)
    rw [if_neg allocated, if_pos small, if_neg (by simp [allocated])]
    rfl

/-- The document of `/resolve`, as a value. -/
def pageValue (name sect area path : Bytes) : Value :=
  .object [(lit "name", .string name), (lit "section", .string sect), (lit "area", .string area),
    (lit "path", .string path)]

theorem parse_resolvedText {area' sect' : Bytes} (named : Plain name) (section' : Plain sect')
    (place : Plain area') :
    parse (manResolvedText name sect' area' (shown.flatMap escapeByte)) =
      some (pageValue name sect' area' shown) := by
  have text : manResolvedText name sect' area' (shown.flatMap escapeByte) =
      renderBy escapeByte (pageValue name sect' area' shown) := by
    have keys : quoteBy escapeByte (lit "name") = lit "\"name\"" ∧
        quoteBy escapeByte (lit "section") = lit "\"section\"" ∧
        quoteBy escapeByte (lit "area") = lit "\"area\"" ∧
        quoteBy escapeByte (lit "path") = lit "\"path\"" := by decide
    obtain ⟨nameKey, sectKey, areaKey, pathKey⟩ := keys
    have first : lit "\x7b\"name\":\"" = 123 :: (lit "\"name\"" ++ [58, 34]) := by decide
    have second : lit "\",\"section\":\"" = [34, 44] ++ lit "\"section\"" ++ [58, 34] := by decide
    have third : lit "\",\"area\":\"" = [34, 44] ++ lit "\"area\"" ++ [58, 34] := by decide
    have fourth : lit "\",\"path\":\"" = [34, 44] ++ lit "\"path\"" ++ [58, 34] := by decide
    have last : lit "\"\x7d" = [34, 125] := by decide
    rw [manResolvedText, pageValue]
    simp only [renderBy, renderMembersBy, nameKey, sectKey, areaKey, pathKey]
    simp only [quoteBy, flatMap_escapeByte_of_plain named, flatMap_escapeByte_of_plain section',
      flatMap_escapeByte_of_plain place, first, second, third, fourth, last, List.append_assoc,
      List.cons_append, List.nil_append]
  rw [text, parse_renderBy escapes_escapeByte]

/-! ## The answers -/

/-- A section of an area, as a value. -/
def sectionValue (entry : Bytes × Bytes) : Value :=
  .object [(lit "id", .string entry.1), (lit "name", .string entry.2)]

/-- An area with its sections. -/
def areaValue (name path : Bytes) (sections : List (Bytes × Bytes)) : Value :=
  .object [(lit "name", .string name), (lit "path", .string path),
    (lit "sections", .array (sections.map sectionValue))]

/-- What `/sections` tells. -/
def sectionsValue : Value :=
  .object
    [(lit "system", areaValue (lit "OpenBSD Base System") (lit "/usr/share/man")
        [(lit "1", lit "General Commands"), (lit "2", lit "System Calls"),
          (lit "3", lit "Library Functions"), (lit "3p", lit "Perl Library"),
          (lit "4", lit "Device Drivers"), (lit "5", lit "File Formats"), (lit "6", lit "Games"),
          (lit "7", lit "Miscellaneous"), (lit "8", lit "System Administration"),
          (lit "9", lit "Kernel Internals")]),
      (lit "x11", areaValue (lit "X11 Window System") (lit "/usr/X11R6/man")
        [(lit "1", lit "X11 Commands"), (lit "3", lit "X11 Library"), (lit "4", lit "X11 Drivers"),
          (lit "5", lit "X11 Formats"), (lit "7", lit "X11 Misc")]),
      (lit "packages", areaValue (lit "Local Packages") (lit "/usr/local/man")
        [(lit "1", lit "Pkg General"), (lit "2", lit "Pkg Calls"), (lit "3", lit "Pkg Lib"),
          (lit "3p", lit "Pkg Perl"), (lit "4", lit "Pkg Drivers"), (lit "5", lit "Pkg Formats"),
          (lit "6", lit "Pkg Games"), (lit "7", lit "Pkg Misc"), (lit "8", lit "Pkg Admin"),
          (lit "9", lit "Pkg Kernel")])]

/-- A document that tells an error. -/
def errorValue (message : Bytes) : Value := .object [(lit "error", .string message)]

/-- What is behind `/api/man` in a URL. -/
def manApiPath (url : Bytes) : Option Bytes :=
  (strstr (lit "/api/man") url).map fun at' => url.drop (at' + (lit "/api/man").length)

/-- The page `/resolve` is asked for. -/
def askedName (url : Bytes) : Bytes := (manGetQueryValue url (lit "name") [] 64).1

/-- The section it is asked for in; empty for any. -/
def askedSection (url : Bytes) : Bytes := (manGetQueryValue url (lit "section") [] 16).1

/-- What the document for a URL tells. -/
inductive Told (env : ManApiEnv) (url path : Bytes) : Value → Prop
  | sections (asked : pathMatchesEndpoint path (lit "/sections") = true) :
      Told env url path sectionsValue
  | pages {area sect : Bytes} {names : List Bytes} (asked : manApiSectionPages url = some (area, sect))
      (lists : Lists env.index area sect names) :
      Told env url path (.object [(lit "pages", .array (names.map .string))])
  | noSection (asked : pathMatchesEndpoint path (lit "/pages") = true)
      (missing : manApiSectionPages url = none) :
      Told env url path (errorValue (lit "Missing section parameter"))
  | page {sect filepath : Bytes} (asked : pathMatchesEndpoint path (lit "/resolve") = true)
      (valid : manIsValidToken (askedName url) = true)
      (found : manFindPage env.search (askedName url) (askedSection url) = some (sect, filepath)) :
      Told env url path (pageValue (askedName url) (manResolvedSection sect filepath)
        (manAreaFromPath filepath) (shownPath env filepath))
  | refused (asked : pathMatchesEndpoint path (lit "/resolve") = true)
      (invalid : manIsValidToken (askedName url) = false ∨
        askedSection url ≠ [] ∧ manIsValidSection (askedSection url) = false) :
      Told env url path (errorValue (lit "name parameter required"))
  | notFound (asked : pathMatchesEndpoint path (lit "/resolve") = true)
      (missing : manFindPage env.search (askedName url) (askedSection url) = none) :
      Told env url path (errorValue (lit "not found"))
  | unknown (unlisted : ∀ area sect, manApiSectionPages url = some (area, sect) →
        manGetSectionPagesJson env.index area sect = none) :
      Told env url path (errorValue (lit "Unknown API endpoint or malformed path"))

theorem parse_manSections : parse manSections = some sectionsValue := by
  have text : manSections = render sectionsValue := by decide +kernel
  rw [text, parse_render]

theorem parse_errorJson {message : Bytes} (plain : Plain message)
    (told : manErrorJson env message = some json) : parse json = some (errorValue message) := by
  rw [manErrorJson] at told
  split at told
  · cases told
    have front : lit "\x7b\"error\":\"" = 123 :: (quote (lit "error") ++ [58, 34]) := by decide
    have back : lit "\"\x7d" = [34, 125] := by decide
    have text : lit "\x7b\"error\":\"" ++ message ++ lit "\"\x7d" = render (errorValue message) := by
      have quotes : lit "\"" = [34] := rfl
      rw [errorValue, render, render, renderMembers, quote_of_plain plain, front, back, quotes]
      simp only [List.cons_append, List.append_assoc, List.nil_append]
    rw [text, parse_render]
  · cases told

/-- The endpoint `/resolve` tells of the page it was asked for. -/
theorem resolve_tells (escapes : Escapes env) (asked : pathMatchesEndpoint path (lit "/resolve") = true)
    (told : manResolveJson env url = some json) :
    ∃ value, parse json = some value ∧ Told env url path value := by
  simp only [manResolveJson] at told
  split at told
  · rename_i invalid
    refine ⟨_, parse_errorJson (by decide +kernel) told, .refused asked ?_⟩
    simp only [Bool.or_eq_true, decide_eq_true_eq, Bool.not_eq_true', Bool.and_eq_true, ne_eq] at invalid
    rcases invalid with (unnamed | invalid) | invalid
    · exact .inl (by rw [askedName, unnamed]; rfl)
    · exact .inl invalid
    · exact .inr invalid
  · rename_i valid
    simp only [Bool.or_eq_true, decide_eq_true_eq, Bool.not_eq_true', not_or, Bool.not_eq_false] at valid
    have token : manIsValidToken (askedName url) = true := valid.1.2
    split at told
    · rename_i missing
      exact ⟨_, parse_errorJson (by decide +kernel) told, .notFound asked missing⟩
    · rename_i sect here
      exact absurd (manFindPage_found here).2 (by simp)
    · rename_i sect filepath _ here
      split at told
      · cases told
        obtain ⟨section', absolute⟩ := manFindPage_found here
        refine ⟨_, ?_, .page asked token here⟩
        rw [manEscapedPath_eq escapes absolute, Option.getD_some]
        exact parse_resolvedText (plain_of_token token) (plain_resolvedSection section') plain_areaFromPath
      · cases told

/-- The names go into the list as they stand. -/
example : ((manGetSectionPagesJson (oneFile (lit "a\"b.1")) (lit "system") (lit "1")).bind parse).isNone =
    true := by decide +kernel

/-- One manual page in the base system, and a search that finds its file. -/
def oneManual : ManApiEnv where
  index := oneFile (lit "ls.1")
  search :=
    { run := fun _ => some (lit "/usr/share/man/man1/ls.1\n")
      readable := fun _ => true
      malloc := fun _ => true }
  malloc _ := true
  nullText := lit "(null)"

end Miniweb.ManApiProofs
