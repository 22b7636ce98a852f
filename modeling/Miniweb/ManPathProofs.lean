import Miniweb.Lib.Path
import Miniweb.ManRequestProofs

/-! Where the cache file of a manual page lies. The section and the page are checked, the
area is taken from the URL as it is. -/
namespace Miniweb.ManPathProofs

open Miniweb.Lib Miniweb.Lib.CString Miniweb.Lib.Path Miniweb.Modules Miniweb.ManRequestProofs

variable {url staticDir : Bytes} {parts : ManRequestParts}
  {paths : ManCachePaths}

/-- The last component of the cache file. -/
def fileName (parts : ManRequestParts) : Bytes := parts.page ++ lit "." ++ parts.format

/-- The cache file lies below the directory that is named after the area and the section. -/
def Confined (staticDir : Bytes) (parts : ManRequestParts) (paths : ManCachePaths) : Prop :=
  ∃ names, names ≠ [] ∧ (∀ name ∈ names, IsName name) ∧
    normalise paths.abs =
      (normalise (staticDir ++ [47])).append (lit "man" :: parts.area :: parts.sect :: names)

/-- No request for another page has the same cache file. -/
def Separate (staticDir : Bytes) (parts : ManRequestParts) (paths : ManCachePaths) : Prop :=
  ∀ url' parts' paths', manParseUrl url' = .ok parts' → buildCachePaths staticDir parts' = some paths' →
    parts ≠ parts' → normalise paths.abs ≠ normalise paths'.abs

/-! ## The components of the cache file -/

/-- A short text is in the array if and only if it is what was copied. -/
theorem strlcpy_eq_iff {size : Nat} {s short : Bytes} (fits : short.length + 1 < size) :
    strlcpy size s = short ↔ s = short := by
  constructor
  · intro same
    have length := congrArg List.length same
    rw [strlcpy, List.length_take] at length
    rwa [strlcpy, List.take_of_length_le (by omega)] at same
  · rintro rfl
    exact List.take_of_length_le (by omega)

theorem sect_isName (handled : manParseUrl url = .ok parts) : IsName parts.sect := by
  have valid := (parts_of_handled handled).2.1
  have digits {c : UInt8} (member : c ∈ parts.sect) := sect_bytes valid member
  refine ⟨List.ne_nil_of_length_pos (length_of_validSection valid).1, ?_, ?_, (sect_clean valid).1⟩
  · intro same
    exact absurd (digits (c := 46) (by simp [same, dot])) (by decide)
  · intro same
    exact absurd (digits (c := 46) (by simp [same, dotdot])) (by decide)

/-- The file's name is too long to be `.` or `..`. -/
theorem fileName_isName (handled : manParseUrl url = .ok parts) : IsName (fileName parts) := by
  obtain ⟨_, _, validPage, isFormat⟩ := parts_of_handled handled
  obtain ⟨nonempty, bytes⟩ := token_bytes validPage
  have formats : ∀ f ∈ manFormats, 2 ≤ f.length ∧ 47 ∉ f := by decide
  obtain ⟨two, clean⟩ := formats _ isFormat
  have one : 1 ≤ parts.page.length := List.length_pos_iff.mpr nonempty
  have long : 4 ≤ (fileName parts).length := by
    simp only [fileName, List.length_append, lit_dot, List.length_singleton]
    omega
  have noPeriod : 47 ∉ lit "." := by decide
  refine isName_of_length (by omega) ?_
  simp [fileName, (token_clean bytes).1, clean, noPeriod]

/-! ## The normal form of the cache file -/

/-- What is left of `man` and the area. -/
def areaNames (area : Bytes) : List Bytes :=
  if area = dotdot then [] else if area = dot then [lit "man"] else [lit "man", area]

theorem abs_of_built (built : buildCachePaths staticDir parts = some paths) :
    paths.abs = staticDir ++
      47 :: (lit "man" ++ 47 :: (parts.area ++ 47 :: (parts.sect ++ 47 :: fileName parts))) := by
  have man : lit "/man/" = 47 :: (lit "man" ++ [47]) := rfl
  simp only [buildCachePaths] at built
  split at built
  · cases built
  · split at built
    · cases built
    · cases built
      simp [fileName, man, lit_slash]

theorem man_isName : IsName (lit "man") := isName_of_length (by decide) (by decide)

/-- The area decides how far down the file lies. -/
theorem normalise_cacheFile (handled : manParseUrl url = .ok parts)
    (built : buildCachePaths staticDir parts = some paths) :
    normalise paths.abs = (normalise (staticDir ++ [47])).append
      (areaNames parts.area ++ [parts.sect, fileName parts]) := by
  obtain ⟨nonempty, noSlash⟩ := area_clean handled
  have sectName := sect_isName handled
  have file := fileName_isName handled
  have area : walk (normalise (staticDir ++ [47])).absolute
      (lit "man" :: (normalise (staticDir ++ [47])).names.reverse) parts.area =
      (areaNames parts.area).reverse ++ (normalise (staticDir ++ [47])).names.reverse := by
    by_cases above : parts.area = dotdot
    · rw [areaNames, if_pos above, above, walk_dotdot man_isName]
      rfl
    · by_cases here : parts.area = dot
      · rw [areaNames, if_neg above, if_pos here, here, walk_dot]
        rfl
      · rw [areaNames, if_neg above, if_neg here, walk_name ⟨nonempty, here, above, noSlash⟩]
        rfl
  rw [abs_of_built built, normalise_join, walkAll_join, walkAll_join, walkAll_join,
    walkAll_component man_isName.noSlash, walk_name man_isName, walkAll_component noSlash, area,
    walkAll_component sectName.noSlash, walk_name sectName, walkAll_component file.noSlash,
    walk_name file]
  simp [Normal.append]

theorem append_injective {dir : Normal} {names names' : List Bytes}
    (same : dir.append names = dir.append names') : names = names' := by
  simpa [Normal.append] using same

theorem areaNames_injective {area area' : Bytes} (same : areaNames area = areaNames area') :
    area = area' := by
  simp only [areaNames] at same
  split at same
  · rename_i above
    split at same
    · rename_i above'
      rw [above, above']
    · split at same
      · cases same
      · cases same
  · split at same
    · rename_i here
      split at same
      · cases same
      · split at same
        · rename_i here'
          rw [here, here']
        · cases same
    · split at same
      · cases same
      · split at same
        · cases same
        · simpa using same

/-- The parts are read off the normal form. -/
theorem separate_of_handled (handled : manParseUrl url = .ok parts)
    (built : buildCachePaths staticDir parts = some paths) : Separate staticDir parts paths := by
  intro url' parts' paths' handled' built' differ same
  rw [normalise_cacheFile handled built, normalise_cacheFile handled' built'] at same
  obtain ⟨areas, last⟩ := List.append_inj' (append_injective same) rfl
  obtain ⟨sects, files⟩ := List.cons.inj last
  have formats : ∀ f ∈ manFormats, 46 ∉ f := by decide
  have split' : parts.page ++ 46 :: parts.format = parts'.page ++ 46 :: parts'.format := by
    simpa [fileName, lit_dot] using (List.cons.inj files).1
  obtain ⟨pages, formats⟩ := split_at_last (formats _ (parts_of_handled handled).2.2.2)
    (formats _ (parts_of_handled handled').2.2.2) split'
  exact differ (ManRequestParts.ext (areaNames_injective areas) sects pages formats)

/-- The file lies below the directory of its area if and only if the area is a name. -/
theorem confined_iff (handled : manParseUrl url = .ok parts)
    (built : buildCachePaths staticDir parts = some paths) :
    Confined staticDir parts paths ↔ parts.area ≠ dot ∧ parts.area ≠ dotdot := by
  have normal := normalise_cacheFile handled built
  constructor
  · rintro ⟨names, nonempty, _, below⟩
    rw [normal] at below
    have count := congrArg List.length (append_injective below)
    have more := List.length_pos_iff.mpr nonempty
    simp only [List.length_append, List.length_cons, List.length_nil] at count
    constructor
    · intro here
      rw [areaNames, here, if_neg (by decide), if_pos rfl, List.length_singleton] at count
      omega
    · intro above
      rw [areaNames, if_pos above, List.length_nil] at count
      omega
  · rintro ⟨notHere, notAbove⟩
    refine ⟨[fileName parts], by simp, ?_, ?_⟩
    · intro name member
      rw [List.mem_singleton.mp member]
      exact fileName_isName handled
    · rw [normal, areaNames, if_neg notAbove, if_neg notHere]
      rfl

/-- The cache file of a request that is handled lies below the directory of its area and
section, apart from those of all other pages, if and only if the first component of the
URL's path is neither `.` nor `..`. -/
theorem cacheFile_confined_iff (handled : manParseUrl url = .ok parts)
    (built : buildCachePaths staticDir parts = some paths) :
    Confined staticDir parts paths ∧ Separate staticDir parts paths ↔
      pathArea url ≠ dot ∧ pathArea url ≠ dotdot := by
  have cut := (area_of_handled handled).1
  have here : parts.area = dot ↔ pathArea url = dot := by
    rw [cut]
    exact strlcpy_eq_iff (by decide)
  have above : parts.area = dotdot ↔ pathArea url = dotdot := by
    rw [cut]
    exact strlcpy_eq_iff (by decide)
  rw [confined_iff handled built, ne_eq, ne_eq, here, above]
  exact and_iff_left (separate_of_handled handled built)

/-- The cache file of `ls`. -/
theorem cacheFile_ls :
    Confined (lit "static") ⟨lit "system", lit "1", lit "ls", lit "html"⟩
        ⟨lit "/static/man/system/1/ls.html", lit "static/man/system/1/ls.html"⟩ ∧
      Separate (lit "static") ⟨lit "system", lit "1", lit "ls", lit "html"⟩
        ⟨lit "/static/man/system/1/ls.html", lit "static/man/system/1/ls.html"⟩ := by
  have handled : manParseUrl (lit "/man/system/1/ls.html") =
      .ok ⟨lit "system", lit "1", lit "ls", lit "html"⟩ := by
    decide +kernel
  exact (cacheFile_confined_iff handled (by decide +kernel)).mpr
    ⟨by decide +kernel, by decide +kernel⟩

/-- With `..` for the area the cache file lies outside `man`. -/
theorem cacheFile_escapes :
    ¬ ∀ (url staticDir : Bytes) (parts : ManRequestParts) (paths : ManCachePaths),
      manParseUrl url = .ok parts → buildCachePaths staticDir parts = some paths →
      Confined staticDir parts paths ∧ Separate staticDir parts paths := by
  intro always
  obtain ⟨⟨names, nonempty, _, below⟩, _⟩ := always (lit "/man/../1/ls.html") (lit "static")
    ⟨lit "..", lit "1", lit "ls", lit "html"⟩
    ⟨lit "/static/man/../1/ls.html", lit "static/man/../1/ls.html"⟩
    (by decide +kernel) (by decide +kernel)
  have names' : (normalise (lit "static/man/../1/ls.html")).names =
      [lit "static", lit "1", lit "ls.html"] := by
    decide +kernel
  have count := congrArg (fun normal => normal.names.length) below
  have more := List.length_pos_iff.mpr nonempty
  simp only [Normal.append, List.length_append, List.length_cons, names', List.length_nil] at count
  omega

end Miniweb.ManPathProofs
