import Miniweb.Modules.ManIndex

/-! What the list of a section's pages can tell about the file system, and under which names
it lists the files. No check guards the directory that is opened; every name read from it has
to parse to the section asked for. -/
namespace Miniweb.ManIndexProofs

open Miniweb.Lib.CString Miniweb.Modules

variable {env env' : ManIndexEnv} {area sect json json' : Bytes}

/-! ## What the list reveals -/

/-- The directories the list may depend on: those of the valid sections. -/
def SectionDir (dir : Bytes) : Prop :=
  ∃ base ∈ [lit "/usr/share/man", lit "/usr/local/man", lit "/usr/X11R6/man"],
    ∃ sect, manIsValidSection sect = true ∧ dir = base ++ lit "/man" ++ sect

/-- The two file systems hold the same in these directories. -/
def SameSections (env env' : ManIndexEnv) : Prop :=
  ∀ dir, SectionDir dir → env.opendir dir = env'.opendir dir

/-- No entry is listed for a section that is not a valid one. -/
theorem manPageName_of_invalid (invalid : manIsValidSection sect = false) (de : Dirent) :
    manPageName sect de = none := by
  simp only [manPageName]
  split
  · rfl
  · split
    · rfl
    · split
      · rfl
      · rename_i resolved parsed
        have valid := validSection_of_parse (by decide) parsed
        rw [if_pos]
        rintro rfl
        rw [valid] at invalid
        cases invalid

/-- A directory none of whose entries is listed adds no page. -/
theorem manCollectPages_of_none {entries : List Dirent}
    (unlisted : ∀ de ∈ entries, manPageName sect de = none) (calls : Nat) (pages : List Bytes) :
    manCollectPages env sect calls pages entries = pages := by
  induction entries with
  | nil => rfl
  | cons de rest ih =>
    simp only [manCollectPages, unlisted de List.mem_cons_self]
    exact ih fun de member => unlisted de (List.mem_cons_of_mem _ member)

/-- Whatever the directory holds, the list of an invalid section is empty. -/
theorem json_of_invalid (invalid : manIsValidSection sect = false)
    (replied : manGetSectionPagesJson env area sect = some json) : json = manNoPages := by
  simp only [manGetSectionPagesJson] at replied
  split at replied
  · split at replied
    · exact (Option.some.inj replied).symm
    · cases replied
  · split at replied
    · rw [manCollectPages_of_none fun de _ => manPageName_of_invalid invalid de,
        List.mergeSort_nil] at replied
      cases replied
      decide
    · cases replied

/-- With memory there always is a list. -/
theorem replies_of_allocates (allocates : ∀ n size, env.allocates n size = true)
    (area sect : Bytes) : ∃ json, manGetSectionPagesJson env area sect = some json := by
  simp only [manGetSectionPagesJson, allocates, if_true]
  split
  · exact ⟨_, rfl⟩
  · exact ⟨_, rfl⟩

theorem manBase_mem (area : Bytes) :
    manBase area ∈ [lit "/usr/share/man", lit "/usr/local/man", lit "/usr/X11R6/man"] := by
  simp only [manBase]
  split
  · simp
  · split
    · simp
    · simp

/-- The directory of a valid section is not cut. -/
theorem sectionDir_of_valid (area : Bytes) (valid : manIsValidSection sect = true) :
    SectionDir (manSectionDir area sect) := by
  refine ⟨manBase area, manBase_mem area, sect, valid, ?_⟩
  have short := (length_of_validSection valid).2
  have base : (manBase area).length ≤ 14 := by
    have member := manBase_mem area
    simp only [List.mem_cons, List.not_mem_nil, or_false] at member
    rcases member with same | same | same
    · rw [same]
      decide
    · rw [same]
      decide
    · rw [same]
      decide
  rw [manSectionDir, strlcpy, List.take_of_length_le]
  have name : (lit "/man").length = 4 := rfl
  simp only [List.length_append, name]
  omega

/-- The pages kept depend on the entries and on the memory alone. -/
theorem manCollectPages_congr (memory : env.allocates = env'.allocates) (calls : Nat)
    (pages : List Bytes) (entries : List Dirent) :
    manCollectPages env sect calls pages entries =
      manCollectPages env' sect calls pages entries := by
  induction entries generalizing calls pages with
  | nil => rfl
  | cons de rest ih =>
    simp only [manCollectPages, memory]
    split
    · exact ih calls pages
    · split
      · split
        · exact ih _ _
        · exact ih _ _
      · exact ih _ _

/-- The list of a valid section is the same in both file systems. -/
theorem json_of_same (memory : env.allocates = env'.allocates) (same : SameSections env env')
    (valid : manIsValidSection sect = true) :
    manGetSectionPagesJson env area sect = manGetSectionPagesJson env' area sect := by
  have opened := same _ (sectionDir_of_valid area valid)
  simp only [manGetSectionPagesJson, opened, memory, manCollectPages_congr memory]

/-- A section that `man_is_valid_section` rejects gets the empty list whatever the file
system holds, and any list depends on the directories of valid sections alone: nothing
else, of the URL or of the file system, shows in it. -/
theorem sectionPages_confined (area sect : Bytes) :
    (manIsValidSection sect = false → ∀ env json,
      manGetSectionPagesJson env area sect = some json → json = manNoPages) ∧
    (∀ env, (∀ n size, env.allocates n size = true) →
      ∃ json, manGetSectionPagesJson env area sect = some json) ∧
    ∀ env env' json json', env.allocates = env'.allocates → SameSections env env' →
      manGetSectionPagesJson env area sect = some json →
      manGetSectionPagesJson env' area sect = some json' → json = json' := by
  refine ⟨fun invalid env json => json_of_invalid invalid, fun env allocates =>
    replies_of_allocates allocates area sect, ?_⟩
  intro env env' json json' memory same replied replied'
  cases valid : manIsValidSection sect with
  | true =>
    rw [json_of_same memory same valid, replied'] at replied
    exact (Option.some.inj replied).symm
  | false => rw [json_of_invalid valid replied, json_of_invalid valid replied']

/-! ## The names in the list

A file is listed when its name without a suffix of compression ends in the section; the name
it is listed under comes from another copy of the file's name, cut to 127 bytes and then at
its last dot. -/

variable {base suffix suffix' name filename : Bytes} {de : Dirent}

/-- The file holds the page of this name in this section, compressed or not. -/
def HoldsPage (sect filename name : Bytes) : Prop :=
  ∃ suffix ∈ [] :: compressedSuffixes, filename = name ++ lit "." ++ sect ++ suffix

/-- The page's name is shorter than 127 bytes and no dot behind it is among the first 127
bytes but the section's, or it has just 127 bytes and no dot. -/
def CutAtSection (sect filename : Bytes) : Prop :=
  ∃ base, ∃ suffix ∈ [] :: compressedSuffixes, filename = base ++ lit "." ++ sect ++ suffix ∧
    (base.length < 127 ∧ (suffix = [] ∨ 127 ≤ base.length + 1 + sect.length) ∨
      base.length = 127 ∧ 46 ∉ base)

theorem noDot_of_validSection (valid : manIsValidSection sect = true) : 46 ∉ sect := by
  intro member
  cases sect with
  | nil => cases member
  | cons c rest =>
    simp only [manIsValidSection, Bool.and_eq_true, List.all_eq_true] at valid
    rcases List.mem_cons.mp member with rfl | later
    · exact absurd valid.1.2 (by decide)
    · exact absurd (valid.2 46 later) (by decide)

/-- A suffix of compression is a dot and letters that are no section. -/
theorem suffix_cases (listed : suffix ∈ [] :: compressedSuffixes) :
    suffix = [] ∨ ∃ letters, suffix = 46 :: letters ∧ 46 ∉ letters ∧
      manIsValidSection letters = false := by
  have checked : ∀ suffix ∈ [] :: compressedSuffixes, suffix = [] ∨ suffix.head? = some 46 ∧
      46 ∉ suffix.tail ∧ manIsValidSection suffix.tail = false := by
    decide
  rcases checked suffix listed with rfl | ⟨dot, clean, invalid⟩
  · exact .inl rfl
  · cases suffix with
    | nil => cases dot
    | cons c letters =>
      cases dot
      exact .inr ⟨letters, rfl, clean, invalid⟩

/-- A file holds one page of a section. -/
theorem holdsPage_iff (valid : manIsValidSection sect = true)
    (listed : suffix ∈ [] :: compressedSuffixes) :
    HoldsPage sect (base ++ lit "." ++ sect ++ suffix) name ↔ name = base := by
  have clean := noDot_of_validSection valid
  constructor
  · rintro ⟨suffix', listed', same⟩
    simp only [lit_dot, List.append_assoc, List.singleton_append] at same
    rcases suffix_cases listed with rfl | ⟨letters, rfl, noDot, invalid⟩
    · rcases suffix_cases listed' with rfl | ⟨letters', rfl, noDot', invalid'⟩
      · rw [List.append_nil] at same
        exact (split_at_last clean clean same).1.symm
      · have ends : base ++ 46 :: sect = (name ++ 46 :: sect) ++ 46 :: letters' := by
          simpa using same
        rw [← (split_at_last clean noDot' ends).2, valid] at invalid'
        cases invalid'
    · rcases suffix_cases listed' with rfl | ⟨letters', rfl, noDot', invalid'⟩
      · have ends : (base ++ 46 :: sect) ++ 46 :: letters = name ++ 46 :: sect := by
          simpa using same
        rw [(split_at_last noDot clean ends).2, valid] at invalid
        cases invalid
      · have ends : (base ++ 46 :: sect) ++ 46 :: letters =
            (name ++ 46 :: sect) ++ 46 :: letters' := by
          simpa using same
        exact (split_at_last clean clean (split_at_last noDot noDot' ends).1).1.symm
  · rintro rfl
    exact ⟨suffix, listed, rfl⟩

/-- What the section is looked for in, and what is left out of it. -/
theorem stripCompressed_append (filename : Bytes) :
    ∃ suffix ∈ [] :: compressedSuffixes, filename = stripCompressed filename ++ suffix := by
  simp only [stripCompressed]
  split
  · rename_i suffix found
    have ends := List.find?_some found
    simp only [Bool.and_eq_true, List.isSuffixOf_iff_suffix] at ends
    refine ⟨suffix, List.mem_cons_of_mem _ (List.mem_of_find?_eq_some found), ?_⟩
    obtain ⟨front, rfl⟩ := ends.2
    simp
  · exact ⟨[], List.mem_cons_self, (List.append_nil _).symm⟩

/-- A file with a section is a page, the section's dot, the section and a suffix. -/
theorem filename_of_parse (short : filename.length ≤ 255)
    (parsed : manParseSectionFromFilename filename 16 = some sect) :
    ∃ base, ∃ suffix ∈ [] :: compressedSuffixes,
      filename = base ++ lit "." ++ sect ++ suffix := by
  have whole : strlcpy 256 filename = filename := List.take_of_length_le short
  obtain ⟨suffix, listed, same⟩ := stripCompressed_append filename
  simp only [manParseSectionFromFilename, whole] at parsed
  split at parsed
  · cases parsed
  · rename_i dot found
    obtain ⟨base, back, split', _, rfl⟩ := strrchr_eq_some.mp found
    have behind : (stripCompressed filename).drop (base.length + 1) = back := by
      rw [split']
      simp
    rw [behind] at parsed
    split at parsed
    · rename_i valid
      cases parsed
      have few := (length_of_validSection valid).2
      refine ⟨base, suffix, listed, ?_⟩
      rw [strlcpy, List.take_of_length_le (by omega)]
      calc filename = stripCompressed filename ++ suffix := same
        _ = base ++ lit "." ++ back ++ suffix := by simp [split', lit_dot]
    · cases parsed

/-- The copy of a file's name, cut at its last dot. -/
def cutName (filename : Bytes) : Bytes :=
  ((strrchr 46 (filename.take 127)).elim (filename.take 127) (filename.take 127).take)

/-- What the list says of an entry, and where it comes from. -/
theorem manPageName_eq_some (named : manPageName sect de = some name) :
    manParseSectionFromFilename de.name 16 = some sect ∧ name = cutName de.name := by
  simp only [manPageName] at named
  split at named
  · cases named
  · split at named
    · cases named
    · split at named
      · cases named
      · rename_i resolved parsed
        split at named
        · cases named
        · rename_i same
          rw [not_ne_iff] at same
          subst same
          refine ⟨parsed, ?_⟩
          split at named
          · rename_i noDot
            cases named
            rw [cutName, ← show strlcpy 128 de.name = de.name.take 127 from rfl, noDot]
            rfl
          · rename_i dot found
            cases named
            rw [cutName, ← show strlcpy 128 de.name = de.name.take 127 from rfl, found]
            rfl

/-- The copy is cut at a dot that is the last of the first 127 bytes. -/
theorem cutName_at_dot {back : Bytes} (inside : base.length < 127)
    (clean : 46 ∉ back.take (126 - base.length)) : cutName (base ++ 46 :: back) = base := by
  have copy : (base ++ 46 :: back).take 127 = base ++ 46 :: back.take (126 - base.length) := by
    rw [List.take_append, List.take_of_length_le (by omega),
      show 127 - base.length = (126 - base.length) + 1 by omega, List.take_succ_cons]
  rw [cutName, copy, strrchr_append_cons clean]
  simp

/-- The copy of a long name is the name only if it ends where the copy ends, without a dot. -/
theorem cutName_long {back : Bytes} (long : 127 ≤ base.length) :
    cutName (base ++ back) = base ↔ base.length = 127 ∧ 46 ∉ base := by
  have copy : (base ++ back).take 127 = base.take 127 := List.take_append_of_le_length long
  rw [cutName, copy]
  constructor
  · intro same
    cases found : strrchr 46 (base.take 127) with
    | none =>
      rw [found] at same
      change base.take 127 = base at same
      have whole := congrArg List.length same
      rw [List.length_take] at whole
      rw [same] at found
      exact ⟨by omega, strrchr_eq_none.mp found⟩
    | some dot =>
      obtain ⟨front, behind, split', _, rfl⟩ := strrchr_eq_some.mp found
      have room := congrArg List.length split'
      rw [found] at same
      have whole := congrArg List.length same
      simp only [Option.elim_some, List.length_take, List.length_append, List.length_cons] at room whole
      omega
  · rintro ⟨exactly, clean⟩
    have whole : base.take 127 = base := List.take_of_length_le (by omega)
    rw [whole, strrchr_eq_none.mpr clean]
    rfl

/-- When the copy cut at its last dot is the page's name. -/
theorem cutName_iff (valid : manIsValidSection sect = true)
    (listed : suffix ∈ [] :: compressedSuffixes) :
    cutName (base ++ lit "." ++ sect ++ suffix) = base ↔
      base.length < 127 ∧ (suffix = [] ∨ 127 ≤ base.length + 1 + sect.length) ∨
        base.length = 127 ∧ 46 ∉ base := by
  have clean := noDot_of_validSection valid
  have parts : base ++ lit "." ++ sect ++ suffix = base ++ 46 :: (sect ++ suffix) := by
    simp [lit_dot]
  rw [parts]
  by_cases inside : base.length < 127
  · have short : (base.length < 127 ∧ (suffix = [] ∨ 127 ≤ base.length + 1 + sect.length) ∨
        base.length = 127 ∧ 46 ∉ base) ↔
        suffix = [] ∨ 127 ≤ base.length + 1 + sect.length := by
      constructor
      · rintro (⟨_, here⟩ | ⟨exactly, _⟩)
        · exact here
        · omega
      · exact fun here => .inl ⟨inside, here⟩
    rw [short]
    constructor
    · intro same
      rcases suffix_cases listed with rfl | ⟨letters, rfl, noDot, _⟩
      · exact .inl rfl
      · -- The suffix's dot is in the copy, and the section stays in the name.
        by_contra further
        rw [not_or, Nat.not_le] at further
        have length : (base ++ 46 :: sect).length = base.length + 1 + sect.length := by
          simp
          omega
        have cut : cutName ((base ++ 46 :: sect) ++ 46 :: letters) = base ++ 46 :: sect :=
          cutName_at_dot (by omega) fun member => noDot (List.mem_of_mem_take member)
        rw [List.append_assoc, List.cons_append, same] at cut
        have longer := congrArg List.length cut
        rw [length] at longer
        omega
    · intro here
      refine cutName_at_dot inside fun member => ?_
      rcases here with rfl | behind
      · rw [List.append_nil] at member
        exact clean (List.mem_of_mem_take member)
      · rw [List.take_append_of_le_length (by omega)] at member
        exact clean (List.mem_of_mem_take member)
  · rw [cutName_long (by omega)]
    constructor
    · exact .inr
    · rintro (⟨short, _⟩ | here)
      · exact absurd short inside
      · exact here

/-- The name an entry is listed under is the page's just when its file's name is cut at the
section. -/
theorem manPageName_holdsPage (valid : manIsValidSection sect = true)
    (short : de.name.length ≤ 255) (named : manPageName sect de = some name) :
    HoldsPage sect de.name name ↔ CutAtSection sect de.name := by
  obtain ⟨parsed, rfl⟩ := manPageName_eq_some named
  obtain ⟨base, suffix, listed, parts⟩ := filename_of_parse short parsed
  rw [parts, holdsPage_iff valid listed, cutName_iff valid listed]
  constructor
  · exact fun cut => ⟨base, suffix, listed, rfl, cut⟩
  · rintro ⟨base', suffix', listed', same, cut⟩
    have page : HoldsPage sect (base ++ lit "." ++ sect ++ suffix) base' := ⟨suffix', listed', same⟩
    cases (holdsPage_iff valid listed).mp page
    cases List.append_cancel_left same
    exact cut

/-! ## The list as text -/

/-- The text of a list of names. -/
def pagesJson (names : List Bytes) : Bytes :=
  lit "\x7b\"pages\":[" ++
    (lit ",").intercalate (names.map fun name => lit "\"" ++ name ++ lit "\"") ++ lit "]\x7d"

/-- The names behind the first one. -/
def moreNames (names : List Bytes) : Bytes :=
  (names.map fun name => lit "," ++ lit "\"" ++ name ++ lit "\"").flatten

theorem pagesJson_cons (name : Bytes) (names : List Bytes) : pagesJson (name :: names) =
    lit "\x7b\"pages\":[" ++ (lit "\"" ++ name ++ lit "\"") ++ moreNames names ++ lit "]\x7d" := by
  induction names generalizing name with
  | nil => simp [pagesJson, moreNames]
  | cons next names ih =>
    have rest := ih next
    simp only [pagesJson, List.map_cons, List.intercalate_cons_cons, List.append_assoc,
      List.append_cancel_left_eq, moreNames, List.flatten_cons] at rest ⊢
    rw [rest]

/-- Behind the first name, the loop writes a selection of the others. -/
theorem manAppendPages_more (json : Bytes) (names : List Bytes) :
    ∃ written, written.Sublist names ∧ manAppendPages json false names = json ++ moreNames written := by
  induction names generalizing json with
  | nil => exact ⟨[], .refl _, (List.append_nil _).symm⟩
  | cons name names ih =>
    simp only [manAppendPages, Bool.false_eq_true, if_false]
    split
    · obtain ⟨written, within, text⟩ := ih json
      exact ⟨written, within.cons _, text⟩
    · obtain ⟨written, within, text⟩ := ih (json ++ (lit "," ++ lit "\"" ++ name ++ lit "\""))
      refine ⟨name :: written, within.cons_cons _, text.trans ?_⟩
      simp [moreNames]

/-- The list is the text of a selection of the names. -/
theorem manAppendPages_pagesJson (names : List Bytes) :
    ∃ written, written.Sublist names ∧
      manAppendPages (lit "\x7b\"pages\":[") true names ++ lit "]\x7d" = pagesJson written := by
  induction names with
  | nil => exact ⟨[], .refl _, rfl⟩
  | cons name names ih =>
    simp only [manAppendPages, if_true]
    split
    · obtain ⟨written, within, text⟩ := ih
      exact ⟨written, within.cons _, text⟩
    · obtain ⟨written, within, text⟩ := manAppendPages_more
        (lit "\x7b\"pages\":[" ++ ([] ++ lit "\"" ++ name ++ lit "\"")) names
      refine ⟨name :: written, within.cons_cons _, ?_⟩
      rw [text, pagesJson_cons, List.nil_append]

/-- Every page kept is one of those collected before or the name of an entry. -/
theorem manCollectPages_mem (calls : Nat) (pages : List Bytes) (entries : List Dirent)
    (member : name ∈ manCollectPages env sect calls pages entries) :
    name ∈ pages ∨ ∃ de ∈ entries, manPageName sect de = some name := by
  induction entries generalizing calls pages with
  | nil => exact .inl member
  | cons de rest ih =>
    have later {pages' : List Bytes} (here : name ∈ pages' ∨ ∃ de ∈ rest, manPageName sect de = some name)
        (earlier : name ∈ pages' → name ∈ pages ∨ manPageName sect de = some name) :
        name ∈ pages ∨ ∃ de' ∈ de :: rest, manPageName sect de' = some name := by
      rcases here with before | ⟨de', inside, named⟩
      · rcases earlier before with before | named
        · exact .inl before
        · exact .inr ⟨de, List.mem_cons_self, named⟩
      · exact .inr ⟨de', List.mem_cons_of_mem _ inside, named⟩
    simp only [manCollectPages] at member
    split at member
    · exact later (ih _ _ member) .inl
    · rename_i found named
      split at member
      · split at member
        · refine later (ih _ _ member) fun before => ?_
          rcases List.mem_append.mp before with before | here
          · exact .inl before
          · exact .inr (named.trans (congrArg some (List.mem_singleton.mp here).symm))
        · exact later (ih _ _ member) .inl
      · exact later (ih _ _ member) .inl

/-- Of the files of a section, the list says a page's name just when the file's name is cut at
the section. -/
theorem listed_pages_named_iff {entries : List Dirent} (valid : manIsValidSection sect = true)
    (opened : env.opendir (manSectionDir area sect) = some entries)
    (short : ∀ de ∈ entries, de.name.length ≤ 255)
    (replied : manGetSectionPagesJson env area sect = some json) :
    (∃ names, json = pagesJson names ∧
      ∀ name ∈ names, ∃ de ∈ entries, manPageName sect de = some name) ∧
    ∀ de ∈ entries, ∀ name, manPageName sect de = some name →
      (HoldsPage sect de.name name ↔ CutAtSection sect de.name) := by
  refine ⟨?_, fun de member name named => manPageName_holdsPage valid (short de member) named⟩
  simp only [manGetSectionPagesJson, opened] at replied
  split at replied
  · cases replied
    obtain ⟨written, within, text⟩ := manAppendPages_pagesJson
      ((manCollectPages env sect 1 [] entries).mergeSort strcmpLe)
    refine ⟨written, text, fun name member => ?_⟩
    have kept := List.mem_mergeSort.mp (within.subset member)
    exact (manCollectPages_mem 1 [] entries kept).resolve_left List.not_mem_nil
  · cases replied

/-- A directory of the section 1 with one page. -/
def oneFile (filename : Bytes) : ManIndexEnv where
  opendir _ := some [⟨filename, false⟩]
  allocates _ _ := true

theorem listed_pages_named_ls : CutAtSection (lit "1") (lit "ls.1") := by
  have opened : (oneFile (lit "ls.1")).opendir (manSectionDir (lit "system") (lit "1")) =
      some [⟨lit "ls.1", false⟩] := rfl
  have replied : manGetSectionPagesJson (oneFile (lit "ls.1")) (lit "system") (lit "1") =
      some (lit "\x7b\"pages\":[\"ls\"]\x7d") := by
    decide +kernel
  have listed := listed_pages_named_iff (by decide) opened (by decide) replied
  refine (listed.2 ⟨lit "ls.1", false⟩ List.mem_cons_self (lit "ls") (by decide)).mp ?_
  exact ⟨[], List.mem_cons_self, by decide⟩

/-- A compressed page is listed under a name with its section. -/
theorem compressed_page_misnamed :
    ¬ ∀ (env : ManIndexEnv) (area sect json : Bytes) (entries : List Dirent),
      manIsValidSection sect = true → env.opendir (manSectionDir area sect) = some entries →
      (∀ de ∈ entries, de.name.length ≤ 255) → manGetSectionPagesJson env area sect = some json →
      ∀ de ∈ entries, ∀ name, manPageName sect de = some name → HoldsPage sect de.name name := by
  intro always
  have page := always (oneFile (lit "ls.1.gz")) (lit "system") (lit "1")
    (lit "\x7b\"pages\":[\"ls.1\"]\x7d") [⟨lit "ls.1.gz", false⟩] (by decide) rfl (by decide)
    (by decide +kernel) ⟨lit "ls.1.gz", false⟩ List.mem_cons_self (lit "ls.1") (by decide)
  have gz : lit ".gz" ∈ [] :: compressedSuffixes := by decide
  have only : lit "ls.1" = lit "ls" := (holdsPage_iff (by decide) gz).mp page
  exact absurd only (by decide)

end Miniweb.ManIndexProofs
