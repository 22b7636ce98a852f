import Miniweb.Modules.ManRequest

/-! Which requests for manual pages are handled under the names they were made with. The
path passes through five arrays on its way; what does not fit an array is cut off
silently. -/
namespace Miniweb.ManRequestProofs

open Miniweb.Lib.CString Miniweb.Modules

variable {area sect page token : Bytes} {format : ManFormat} {url staticDir : Bytes}
  {parts : ManRequestParts}

/-- The URL of a page in a format. -/
def manUrl (area sect page : Bytes) (format : ManFormat) : Bytes :=
  lit "/man/" ++ area ++ lit "/" ++ sect ++ lit "/" ++ page ++ lit "." ++ format.text

/-- The request goes on with exactly these names: in the cache key, in the cache paths and
in the look-up of the page. -/
structure Exactly (staticDir area sect page : Bytes) (format : ManFormat) (parts : ManRequestParts) :
    Prop where
  named : parts = { area, sect, page, format := format.text }
  key : parts.cacheKey = area ++ lit "/" ++ sect ++ lit "/" ++ page ++ lit "." ++ format.text
  paths : ∀ paths, buildCachePaths staticDir parts = some paths →
    let file := area ++ lit "/" ++ sect ++ lit "/" ++ page ++ lit "." ++ format.text
    paths.rel = lit "/static/man/" ++ file ∧ paths.abs = staticDir ++ lit "/man/" ++ file
  resolved : parts.resolveArguments = (page, sect)

/-- A request for the page is refused, or handled under its own names. -/
def HandledExactly (staticDir area sect page : Bytes) (format : ManFormat) : Prop :=
  ∀ parts, manParseUrl (manUrl area sect page format) = .ok parts →
    Exactly staticDir area sect page format parts

/-- The area and the page fit their arrays, or the area and the section leave no room for
a third token in `path_copy`. -/
def FitsArrays (area sect page : Bytes) : Prop :=
  area.length < 32 ∧ page.length < 64 ∨ 253 ≤ area.length + sect.length

/-- The first component of the path behind `/man/`. -/
def pathArea (url : Bytes) : Bytes :=
  ((url.drop 5).dropWhile (· = 47)).takeWhile fun c => c ≠ 47 ∧ c ≠ 63

/-! ## Sections, pages and formats -/

theorem sect_bytes (valid : manIsValidSection sect = true) {c : UInt8} (member : c ∈ sect) :
    isdigit c = true ∨ islower c = true := by
  cases sect with
  | nil => simp [manIsValidSection] at valid
  | cons d rest =>
    simp only [manIsValidSection, Bool.and_eq_true, List.all_eq_true] at valid
    rcases List.mem_cons.mp member with rfl | later
    · exact .inl valid.1.2
    · exact .inr (valid.2 c later)

/-- A section holds none of the bytes that separate the parts of a request. -/
theorem sect_clean (valid : manIsValidSection sect = true) : 47 ∉ sect ∧ 63 ∉ sect := by
  constructor
  · intro member
    exact absurd (sect_bytes valid member) (by decide)
  · intro member
    exact absurd (sect_bytes valid member) (by decide)

theorem token_bytes (valid : manIsValidToken token = true) :
    token ≠ [] ∧ ∀ c ∈ token, isTokenByte c = true := by
  simp only [manIsValidToken, Bool.and_eq_true, List.all_eq_true] at valid
  exact ⟨by simpa using valid.1, valid.2⟩

theorem validToken_of_bytes (nonempty : token ≠ []) (bytes : ∀ c ∈ token, isTokenByte c = true) :
    manIsValidToken token = true := by
  simp only [manIsValidToken, Bool.and_eq_true, List.all_eq_true]
  exact ⟨by simpa using nonempty, bytes⟩

theorem token_clean (bytes : ∀ c ∈ token, isTokenByte c = true) : 47 ∉ token ∧ 63 ∉ token :=
  ⟨fun member => absurd (bytes 47 member) (by decide),
    fun member => absurd (bytes 63 member) (by decide)⟩

theorem format_mem (format : ManFormat) : format.text ∈ manFormats := by
  cases format <;> decide

theorem format_noDot (format : ManFormat) : 46 ∉ format.text := by
  cases format <;> decide

theorem format_bytes (format : ManFormat) : ∀ c ∈ format.text, isTokenByte c = true := by
  rw [← List.all_eq_true]
  cases format <;> rfl

theorem format_length (format : ManFormat) : format.text.length ≤ 4 := by
  cases format <;> decide

/-! ## The path -/

/-- What stands behind `/man/`. -/
theorem drop_manUrl (area sect page : Bytes) (format : ManFormat) :
    (manUrl area sect page format).drop 5 =
      area ++ 47 :: (sect ++ 47 :: (page ++ 46 :: format.text)) := by
  have start : lit "/man/" = [47, 109, 97, 110, 47] := rfl
  simp [manUrl, start, lit_slash, lit_dot]

section Path

variable (noSlash : 47 ∉ area) (noQuery : 63 ∉ area) (validSect : manIsValidSection sect = true)
  (validPage : manIsValidToken page = true)
include noQuery validSect validPage

/-- No query string is cut off. -/
theorem manPathCopy_manUrl : manPathCopy (manUrl area sect page format) =
    (area ++ 47 :: (sect ++ 47 :: (page ++ 46 :: format.text))).take 255 := by
  have clean : 63 ∉ area ++ 47 :: (sect ++ 47 :: (page ++ 46 :: format.text)) := by
    have formatClean := (token_clean (format_bytes format)).2
    simp [noQuery, (sect_clean validSect).2, (token_clean (token_bytes validPage).2).2, formatClean]
  rw [manPathCopy, drop_manUrl, strlcpy]
  refine List.takeWhile_eq_self_iff.mpr fun c member => ?_
  have present := List.mem_of_mem_take member
  simp only [ne_eq, decide_eq_true_eq]
  rintro rfl
  exact clean present

include noSlash

/-- With room for it, the third token is what `path_copy` holds of the page's file. -/
theorem tokens_manUrl (nonempty : area ≠ []) (room : area.length + sect.length < 253) :
    tokens 47 (manPathCopy (manUrl area sect page format)) =
      [area, sect, (page ++ 46 :: format.text).take (253 - area.length - sect.length)] := by
  obtain ⟨sectPositive, _⟩ := length_of_validSection validSect
  obtain ⟨pageNonempty, pageBytes⟩ := token_bytes validPage
  have file : 47 ∉ page ++ 46 :: format.text := by
    simp [(token_clean pageBytes).1, (token_clean (format_bytes format)).1]
  have cut : (area ++ 47 :: (sect ++ 47 :: (page ++ 46 :: format.text))).take 255 =
      area ++ 47 :: (sect ++ 47 ::
        (page ++ 46 :: format.text).take (253 - area.length - sect.length)) := by
    have regroup (rest : Bytes) :
        area ++ 47 :: (sect ++ 47 :: rest) = (area ++ 47 :: (sect ++ [47])) ++ rest := by simp
    have front : (area ++ 47 :: (sect ++ [47])).length = area.length + sect.length + 2 := by
      simp
      omega
    have left : 255 - (area.length + sect.length + 2) = 253 - area.length - sect.length := by omega
    rw [regroup, List.take_append, List.take_of_length_le (by omega), front, left, ← regroup]
  have leftover : (page ++ 46 :: format.text).take (253 - area.length - sect.length) ≠ [] := by
    simp only [ne_eq, List.take_eq_nil_iff, List.append_eq_nil_iff, not_or]
    exact ⟨by omega, fun both => pageNonempty both.1⟩
  rw [manPathCopy_manUrl noQuery validSect validPage, cut, tokens_append_cons,
    tokens_append_cons, tokens_of_not_mem noSlash, if_neg nonempty,
    tokens_of_not_mem (sect_clean validSect).1, if_neg (List.ne_nil_of_length_pos sectPositive),
    tokens_of_not_mem fun member => file (List.mem_of_mem_take member), if_neg leftover]
  rfl

/-- Without room the path ends before the third token, and the request is refused. -/
theorem refused_of_long (long : 253 ≤ area.length + sect.length) (parts : ManRequestParts) :
    manParseUrl (manUrl area sect page format) ≠ .ok parts := by
  have whole : manPathCopy (manUrl area sect page format) <+: area ++ 47 :: (sect ++ 47 :: []) := by
    rw [manPathCopy_manUrl noQuery validSect validPage]
    refine List.prefix_of_prefix_length_le (List.take_prefix _ _) ?_ ?_
    · exact ⟨page ++ 46 :: format.text, by simp⟩
    · simp
      omega
  have few : (tokens 47 (manPathCopy (manUrl area sect page format))).length ≤ 2 := by
    obtain ⟨more, same⟩ := whole
    have bound := tokens_length_append (c := 47) (manPathCopy (manUrl area sect page format)) more
    have one (s : Bytes) (clean : 47 ∉ s) : (tokens 47 s).length ≤ 1 := by
      rw [tokens_of_not_mem clean]
      split
      · exact Nat.zero_le _
      · exact Nat.le_refl _
    have areaOne := one area noSlash
    have sectOne := one sect (sect_clean validSect).1
    have none : (tokens 47 []).length = 0 := rfl
    rw [same, tokens_append_cons, tokens_append_cons, List.length_append, List.length_append,
      none] at bound
    omega
  have noPage : (manPartsOf (tokens 47 (manPathCopy (manUrl area sect page format)))).page = [] := by
    match tokens 47 (manPathCopy (manUrl area sect page format)), few with
    | [], _ => rfl
    | [_], _ => rfl
    | [_, _], _ => rfl
  rw [manParseUrl]
  split
  · nofun
  · simp only [noPage]
    nofun

end Path

/-! ## The third token -/

/-- In front of a format the last dot is the one before it. -/
theorem parse_pageFormat (nonempty : page ≠ []) :
    manParsePageToken sect (page ++ 46 :: format.text) = (sect, strlcpy 64 page, format.text) := by
  have lastDot : strrchr 46 (page ++ 46 :: format.text) = some page.length :=
    strrchr_eq_some.mpr ⟨page, format.text, rfl, format_noDot format, rfl⟩
  have behind : (page ++ 46 :: format.text).drop (page.length + 1) = format.text := by
    simp [List.drop_append]
  have front : (page ++ 46 :: format.text).take page.length = page := by simp
  have short : strlcpy 16 format.text = format.text :=
    List.take_of_length_le (Nat.le_trans (format_length format) (by decide))
  have positive : page.length ≠ 0 := fun zero => nonempty (List.length_eq_zero_iff.mp zero)
  simp only [manParsePageToken, lastDot, if_neg positive, behind, if_pos (format_mem format), front,
    short]

/-- Cutting a nonempty token of accepted bytes leaves an accepted page name. -/
theorem strlcpy_token (nonempty : token ≠ []) (bytes : ∀ c ∈ token, isTokenByte c = true) :
    manIsValidToken (strlcpy 64 token) = true ∧ (strlcpy 64 token).length < 64 := by
  refine ⟨validToken_of_bytes ?_ fun c member => bytes c (List.mem_of_mem_take member), ?_⟩
  · rw [strlcpy, ne_eq, List.take_eq_nil_iff]
    exact not_or.mpr ⟨by decide, nonempty⟩
  · rw [strlcpy, List.length_take]
    omega

/-- Whatever is read from such a token passes the checks that follow, in a page that fits
its array. -/
theorem parse_token (validSect : manIsValidSection sect = true) (nonempty : token ≠ [])
    (bytes : ∀ c ∈ token, isTokenByte c = true) :
    ∃ sect' page' format', manParsePageToken sect token = (sect', page', format') ∧
      manIsValidSection sect' = true ∧ manIsValidToken page' = true ∧ page'.length < 64 ∧
      format' ∈ manFormats := by
  obtain ⟨valid, short⟩ := strlcpy_token nonempty bytes
  have html : lit "html" ∈ manFormats := format_mem .html
  simp only [manParsePageToken]
  split
  · exact ⟨_, _, _, rfl, validSect, valid, short, html⟩
  · rename_i lastDot found
    split
    · exact ⟨_, _, _, rfl, validSect, valid, short, html⟩
    · rename_i inside
      have front : token.take lastDot ≠ [] := by
        rw [ne_eq, List.take_eq_nil_iff]
        exact not_or.mpr ⟨inside, nonempty⟩
      obtain ⟨valid', short'⟩ :=
        strlcpy_token front fun c member => bytes c (List.mem_of_mem_take member)
      split
      · rename_i isFormat
        have whole : strlcpy 16 (token.drop (lastDot + 1)) = token.drop (lastDot + 1) := by
          have bound : ∀ f ∈ manFormats, f.length ≤ 15 := by decide
          exact List.take_of_length_le (bound _ isFormat)
        exact ⟨_, _, _, rfl, validSect, valid', short', by rwa [whole]⟩
      · split
        · rename_i isSection
          have whole : strlcpy 16 (token.drop (lastDot + 1)) = token.drop (lastDot + 1) := by
            have bound := (length_of_validSection isSection).2
            exact List.take_of_length_le (by omega)
          exact ⟨_, _, _, rfl, by rwa [whole], valid', short', html⟩
        · exact ⟨_, _, _, rfl, validSect, valid, short, html⟩

/-- Three tokens, of which the section and the page are accepted, are handled. -/
theorem manParseUrl_tokens {url area' : Bytes} {more : List Bytes} (isMan : lit "/man/" <+: url)
    (split' : tokens 47 (manPathCopy url) = area' :: sect :: token :: more)
    (validSect : manIsValidSection sect = true) (nonempty : token ≠ [])
    (bytes : ∀ c ∈ token, isTokenByte c = true) :
    ∃ sect' page' format', manParsePageToken sect token = (sect', page', format') ∧
      page'.length < 64 ∧ manParseUrl url = .ok ⟨strlcpy 32 area', sect', page', format'⟩ := by
  obtain ⟨sect', page', format', parsed, validSect', validPage', short, isFormat⟩ :=
    parse_token validSect nonempty bytes
  refine ⟨sect', page', format', parsed, short, ?_⟩
  have whole : strlcpy 16 sect = sect := by
    have bound := (length_of_validSection validSect).2
    exact List.take_of_length_le (by omega)
  have present : ¬ (page' = [] ∨ sect' = []) := by
    rintro (empty | empty)
    · exact (token_bytes validPage').1 empty
    · exact List.ne_nil_of_length_pos (length_of_validSection validSect').1 empty
  simp only [manParseUrl, if_neg (not_not.mpr isMan), split', manPartsOf, whole, parsed,
    if_neg present, if_neg (not_not.mpr isFormat), validPage', validSect']
  rfl

/-! ## The parts of a request that is handled -/

/-- A request is handled with three tokens and what the checks let through. -/
theorem parts_of_handled (handled : manParseUrl url = .ok parts) :
    (∃ area sect token more, tokens 47 (manPathCopy url) = area :: sect :: token :: more ∧
      parts.area = strlcpy 32 area ∧
      parts.page = (manParsePageToken (strlcpy 16 sect) token).2.1) ∧
    manIsValidSection parts.sect = true ∧ manIsValidToken parts.page = true ∧
      parts.format ∈ manFormats := by
  simp only [manParseUrl] at handled
  split at handled
  · cases handled
  · split at handled
    · cases handled
    · rename_i present
      split at handled
      · cases handled
      · rename_i isFormat
        split at handled
        · cases handled
        · rename_i accepted
          simp only [Bool.or_eq_true, Bool.not_eq_true', not_or, Bool.not_eq_false] at accepted
          cases handled
          refine ⟨?_, accepted.2, accepted.1, not_not.mp isFormat⟩
          -- with fewer tokens the page is missing
          match split' : tokens 47 (manPathCopy url) with
          | [] | [_] | [_, _] =>
            rw [split'] at present
            exact absurd (.inl rfl) present
          | area :: sect :: token :: more => exact ⟨area, sect, token, more, rfl, rfl, rfl⟩

/-- The area is the first component of the URL's path, cut to its array. -/
theorem area_of_handled (handled : manParseUrl url = .ok parts) :
    parts.area = strlcpy 32 (pathArea url) ∧ pathArea url ≠ [] ∧ 47 ∉ pathArea url := by
  obtain ⟨⟨area, sect, token, more, split', cut, _⟩, _⟩ := parts_of_handled handled
  obtain ⟨lead, back, same, slashes, nonempty, noSlash, last⟩ := tokens_eq_cons split'
  rcases last with ⟨_, none⟩ | ⟨back', rfl, _⟩
  · cases none
  have noQuery : 63 ∉ area := by
    intro member
    have present : (63 : UInt8) ∈ manPathCopy url := by
      rw [same]
      simp [member]
    exact absurd (List.mem_takeWhile_imp present) (by decide)
  -- the copy is the beginning of the path
  obtain ⟨rest, whole⟩ : ∃ rest, url.drop 5 = manPathCopy url ++ rest :=
    let ⟨rest, same⟩ := (List.takeWhile_prefix _).trans (List.take_prefix 255 (url.drop 5))
    ⟨rest, same.symm⟩
  have first : pathArea url = area := by
    rw [pathArea, whole, same]
    simp only [List.append_assoc]
    rw [List.dropWhile_append_of_pos fun c member => by simpa using slashes c member]
    obtain ⟨c, area', rfl⟩ := List.exists_cons_of_ne_nil nonempty
    have notSlash : ¬ c = 47 := fun here => noSlash (here ▸ List.mem_cons_self)
    have stop : (47 :: back' ++ rest).takeWhile (fun c => c ≠ 47 ∧ c ≠ 63) = [] :=
      List.takeWhile_cons_of_neg (by simp)
    rw [List.cons_append, List.dropWhile_cons_of_neg (by simpa using notSlash), ← List.cons_append,
      List.takeWhile_append_of_pos, stop, List.append_nil]
    intro d member
    simp only [ne_eq, decide_eq_true_eq]
    exact ⟨fun here => noSlash (here ▸ member), fun here => noQuery (here ▸ member)⟩
  rw [first]
  exact ⟨cut, nonempty, noSlash⟩

theorem area_clean (handled : manParseUrl url = .ok parts) : parts.area ≠ [] ∧ 47 ∉ parts.area := by
  obtain ⟨cut, nonempty, noSlash⟩ := area_of_handled handled
  rw [cut]
  refine ⟨?_, fun member => noSlash (List.mem_of_mem_take member)⟩
  rw [strlcpy, ne_eq, List.take_eq_nil_iff]
  exact not_or.mpr ⟨by decide, nonempty⟩

/-- The array of the page bounds it. -/
theorem pageToken_length (sect token : Bytes) : (manParsePageToken sect token).2.1.length < 64 := by
  have short (s : Bytes) : (strlcpy 64 s).length < 64 := by
    rw [strlcpy, List.length_take]
    omega
  simp only [manParsePageToken]
  split
  · exact short _
  · split
    · exact short _
    · split
      · exact short _
      · split
        · exact short _
        · exact short _

/-- The parts of a request that is handled are those of a page variant, with its key. -/
theorem variant_of_handled (handled : manParseUrl url = .ok parts) :
    ∃ variant : ManVariant, variant.area = parts.area ∧ variant.sect = parts.sect ∧
      variant.page = parts.page ∧ variant.format.text = parts.format ∧
      manRenderCacheKey variant = parts.cacheKey := by
  obtain ⟨⟨area, sect, token, more, _, cut, page⟩, validSect, _, isFormat⟩ :=
    parts_of_handled handled
  have sectFits := (length_of_validSection validSect).2
  have formats : ∀ f ∈ manFormats, ∃ format : ManFormat, format.text = f := by
    intro f member
    simp only [manFormats, List.mem_cons, List.not_mem_nil, or_false] at member
    rcases member with rfl | rfl | rfl | rfl | rfl
    · exact ⟨.html, rfl⟩
    · exact ⟨.pdf, rfl⟩
    · exact ⟨.ps, rfl⟩
    · exact ⟨.md, rfl⟩
    · exact ⟨.txt, rfl⟩
  obtain ⟨format, text⟩ := formats _ isFormat
  refine ⟨{ area := parts.area, sect := parts.sect, page := parts.page, format
            area_noSlash := (area_clean handled).2
            sect_noSlash := (sect_clean validSect).1
            area_fits := ?_, sect_fits := by omega, page_fits := ?_ }, rfl, rfl, rfl, text, ?_⟩
  · rw [cut, strlcpy, List.length_take]
    omega
  · rw [page]
    exact pageToken_length _ _
  · rw [manRenderCacheKey, text]
    rfl

/-! ## Requests under their own names -/

/-- What fits the arrays is neither cut in the key nor in the paths. -/
theorem exactly_of_fits (validSect : manIsValidSection sect = true) (areaFits : area.length < 32)
    (pageFits : page.length < 64) :
    Exactly staticDir area sect page format ⟨area, sect, page, format.text⟩ := by
  have sectShort := (length_of_validSection validSect).2
  have formatShort := format_length format
  refine ⟨rfl, ?_, fun paths built => ?_, rfl⟩
  · refine List.take_of_length_le ?_
    simp only [List.length_append, lit_slash, lit_dot, List.length_singleton]
    omega
  · simp only [buildCachePaths] at built
    split at built
    · cases built
    · split at built
      · cases built
      · cases built
        exact ⟨rfl, rfl⟩

/-- A request for a page is refused or handled under exactly its own names if and only if
the area and the page fit their arrays, or the page is lost altogether. -/
theorem handledExactly_iff (nonempty : area ≠ []) (noSlash : 47 ∉ area) (noQuery : 63 ∉ area)
    (validSect : manIsValidSection sect = true) (validPage : manIsValidToken page = true) :
    HandledExactly staticDir area sect page format ↔ FitsArrays area sect page := by
  obtain ⟨pageNonempty, pageBytes⟩ := token_bytes validPage
  have isMan : lit "/man/" <+: manUrl area sect page format := by
    simp only [manUrl, List.append_assoc]
    exact List.prefix_append _ _
  have bytes : ∀ c ∈ page ++ 46 :: format.text, isTokenByte c = true := by
    intro c member
    rcases List.mem_append.mp member with inPage | later
    · exact pageBytes c inPage
    · rcases List.mem_cons.mp later with rfl | inFormat
      · decide
      · exact format_bytes format c inFormat
  constructor
  · intro exact'
    by_cases room : area.length + sect.length < 253
    · -- the third token is read, and the names come from the arrays
      have leftover : (page ++ 46 :: format.text).take (253 - area.length - sect.length) ≠ [] := by
        simp only [ne_eq, List.take_eq_nil_iff, List.append_eq_nil_iff, not_or]
        exact ⟨by omega, fun both => pageNonempty both.1⟩
      obtain ⟨_, page', _, _, short, handled⟩ := manParseUrl_tokens isMan
        (tokens_manUrl noSlash noQuery validSect validPage nonempty room) validSect leftover
        fun c member => bytes c (List.mem_of_mem_take member)
      have named := (exact' _ handled).named
      simp only [ManRequestParts.mk.injEq] at named
      obtain ⟨sameArea, _, rfl, _⟩ := named
      refine .inl ⟨?_, short⟩
      rw [← sameArea, strlcpy, List.length_take]
      omega
    · exact .inr (by omega)
  · rintro (⟨areaFits, pageFits⟩ | long)
    · intro parts handled
      have sectShort := (length_of_validSection validSect).2
      have formatShort := format_length format
      have whole : (page ++ 46 :: format.text).take (253 - area.length - sect.length) =
          page ++ 46 :: format.text := by
        refine List.take_of_length_le ?_
        rw [List.length_append, List.length_cons]
        omega
      have split' : tokens 47 (manPathCopy (manUrl area sect page format)) = _ :=
        tokens_manUrl noSlash noQuery validSect validPage nonempty (by omega)
      rw [whole] at split'
      obtain ⟨_, _, _, parsed, _, handled'⟩ :=
        manParseUrl_tokens isMan split' validSect (by simp) bytes
      rw [parse_pageFormat pageNonempty] at parsed
      cases parsed
      have areaWhole : strlcpy 32 area = area := List.take_of_length_le (by omega)
      have pageWhole : strlcpy 64 page = page := List.take_of_length_le (by omega)
      rw [handled', areaWhole, pageWhole] at handled
      cases handled
      exact exactly_of_fits validSect areaFits pageFits
    · exact fun parts handled =>
        absurd handled (refused_of_long noSlash noQuery validSect validPage long parts)

/-- The manual page of `ls`. -/
theorem handledExactly_ls :
    HandledExactly (lit "static") (lit "system") (lit "1") (lit "ls") .html :=
  (handledExactly_iff (by decide) (by decide) (by decide) (by decide) (by decide)).mpr
    (.inl (by decide))

/-- A page name of 70 bytes is handled as its first 63. -/
theorem longPage_shortened :
    ¬ ∀ (staticDir area sect page : Bytes) (format : ManFormat), area ≠ [] → 47 ∉ area → 63 ∉ area →
      manIsValidSection sect = true → manIsValidToken page = true →
      (manUrl area sect page format).length ≤ 511 →
      HandledExactly staticDir area sect page format := by
  intro always
  have exact' := always (lit "static") (lit "system") (lit "1") (List.replicate 70 97) .html
    (by decide) (by decide) (by decide) (by decide) (by decide) (by decide)
  have handled : manParseUrl (manUrl (lit "system") (lit "1") (List.replicate 70 97) .html) =
      .ok ⟨lit "system", lit "1", List.replicate 63 97, lit "html"⟩ := by
    decide +kernel
  exact absurd (exact' _ handled).named (by decide)

end Miniweb.ManRequestProofs
