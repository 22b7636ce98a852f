import Miniweb.Lib.CString
import Miniweb.Modules.Packages

/-! `src/modules/man/man_query.c`: reading and checking the parts of a manual page
request. -/
namespace Miniweb.Modules

open Miniweb.Lib Miniweb.Lib.CString

/-! ## Query parameters -/

/-- The loop of `url_decode_into`, behind the bytes `written` to a buffer of
`dstSize`: what the buffer holds afterwards, and whether the whole source fitted. -/
def manUrlDecodeFrom (dstSize : Nat) (written : Bytes) : Bytes → Bytes × Bool
  | [] => (written, true)
  | c :: rest =>
    if dstSize ≤ written.length + 1 then (written, false)
    else if c = 43 then manUrlDecodeFrom dstSize (written ++ [32]) rest
    else
      match rest with
      | a :: b :: rest' =>
        if c = 37 && isxdigit a && isxdigit b then
          manUrlDecodeFrom dstSize (written ++ [UrlEncoded.escaped a b]) rest'
        else manUrlDecodeFrom dstSize (written ++ [c]) (a :: b :: rest')
      | rest => manUrlDecodeFrom dstSize (written ++ [c]) rest

/-- The loop of `man_get_query_value` from `qs` on: the string it leaves in `out`, which
held `old`, and its answer. It ends since each round moves `qs` past an entry. -/
def manQueryValueFrom (key old : Bytes) (outSize : Nat) (qs : Bytes) : Bytes × Bool :=
  if _ended : qs = [] then (old, false)
  else
    let amp := Packages.ampersand qs
    match strchr 61 qs with
    | none => manQueryValueFrom key old outSize (Packages.nextEntry qs)
    | some eq =>
      if amp < eq then manQueryValueFrom key old outSize (Packages.nextEntry qs)
      else if eq = key.length && key.isPrefixOf qs then
        let encoded := (qs.drop (eq + 1)).take (amp - (eq + 1))
        if 512 ≤ encoded.length then (old, false)
        else
          let (written, whole) := manUrlDecodeFrom outSize [] encoded
          -- without a terminator the rest of what `out` held follows
          (cstr (if whole then written else written ++ old.drop written.length), whole)
      else manQueryValueFrom key old outSize (Packages.nextEntry qs)
termination_by qs.length
decreasing_by all_goals exact Packages.length_nextEntry _ended

/-- `man_get_query_value` with `out` holding `old`: the string in `out` afterwards, and
the answer. -/
def manGetQueryValue (url key old : Bytes) (outSize : Nat) : Bytes × Bool :=
  if outSize = 0 then (old, false)
  else
    match strchr 63 url with
    | none => (old, false)
    | some at' => manQueryValueFrom key old outSize (url.drop (at' + 1))

/-! ## Checks -/

/-- A byte `man_is_valid_token` accepts. -/
def isTokenByte (c : UInt8) : Bool := isalnum c || c = 46 || c = 95 || c = 45 || c = 43

/-- `man_is_valid_token`. -/
def manIsValidToken (s : Bytes) : Bool := !s.isEmpty && s.all isTokenByte

/-- `man_is_valid_section`: a digit and then only lower-case letters. -/
def manIsValidSection : Bytes → Bool
  | [] => false
  | c :: rest => decide ((c :: rest).length ≤ 8) && isdigit c && rest.all islower

/-- The suffixes `man_parse_section_from_filename` takes for a compression. -/
def compressedSuffixes : List Bytes := [lit ".gz", lit ".bz2", lit ".xz", lit ".zst"]

/-- Removes the first of the suffixes that the name is longer than and ends in. -/
def stripCompressed (name : Bytes) : Bytes :=
  match compressedSuffixes.find? fun suffix =>
    decide (suffix.length < name.length) && suffix.isSuffixOf name with
  | some suffix => name.take (name.length - suffix.length)
  | none => name

/-- `man_parse_section_from_filename`: the section it writes to an array of `outLen`
bytes, `none` for its 0. -/
def manParseSectionFromFilename (filename : Bytes) (outLen : Nat) : Option Bytes :=
  let tmp := stripCompressed (strlcpy 256 filename)
  match strrchr 46 tmp with
  | none => none
  | some dot =>
    let suffix := tmp.drop (dot + 1)
    if manIsValidSection suffix then some (strlcpy outLen suffix) else none

/-! ## What the checks accept -/

variable {sect filename : Bytes} {outLen : Nat}

theorem length_of_validSection (valid : manIsValidSection sect = true) :
    0 < sect.length ∧ sect.length ≤ 8 := by
  cases sect with
  | nil => simp [manIsValidSection] at valid
  | cons c rest =>
    simp only [manIsValidSection, Bool.and_eq_true, decide_eq_true_eq] at valid
    exact ⟨by simp, valid.1.1⟩

/-- A section read off a file name is a valid one. -/
theorem validSection_of_parse (roomy : 8 < outLen)
    (parsed : manParseSectionFromFilename filename outLen = some sect) :
    manIsValidSection sect = true := by
  simp only [manParseSectionFromFilename] at parsed
  split at parsed
  · cases parsed
  · split at parsed
    · rename_i valid
      cases parsed
      have short := (length_of_validSection valid).2
      rwa [strlcpy, List.take_of_length_le (by omega)]
    · cases parsed

end Miniweb.Modules
