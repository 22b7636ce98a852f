import Miniweb.Http.Utils
import Miniweb.Lib.UrlEncoded
import Miniweb.Modules.ManQuery

/-! What a request's query string says. The manual's and the packages' modules each have their
own loop over the entries and their own decoder, and `url_decode` is a third one; the loops
read the same entry, and the decoders agree wherever the text is well formed. -/
namespace Miniweb.QueryProofs

open Miniweb.Http Miniweb.Lib.CString Miniweb.Lib.UrlEncoded Miniweb.Modules
open Miniweb.Modules.Packages (ampersand nextEntry length_nextEntry)

variable {key old qs src value text written : Bytes} {dstSize outSize amp eq di : Nat} {c : UInt8}

/-! ## The decoders -/

/-- What the manual's decoder leaves behind what was written: the decoding when it fits with
its terminator. -/
def Decodes (dstSize : Nat) (written decoding : Bytes) (result : Bytes × Bool) : Prop :=
  if written.length + decoding.length < dstSize then result = (written ++ decoding, true)
  else result.2 = false

/-- One more byte is written, if there is room. -/
theorem Decodes.step {decoding : Bytes} {result : Bytes × Bool} {x : UInt8}
    (rest : written.length + 1 < dstSize → Decodes dstSize (written ++ [x]) decoding result) :
    Decodes dstSize written (x :: decoding)
      (if dstSize ≤ written.length + 1 then (written, false) else result) := by
  rw [Decodes, List.length_cons]
  by_cases full : dstSize ≤ written.length + 1
  · rw [if_pos full, if_neg (by omega)]
  · rw [if_neg full]
    have rest := rest (by omega)
    rwa [Decodes, List.length_append, List.length_singleton, List.append_assoc,
      List.singleton_append, Nat.add_assoc, Nat.add_comm 1] at rest

theorem manUrlDecodeFrom_spec (room : written.length < dstSize) :
    Decodes dstSize written (decode src) (manUrlDecodeFrom dstSize written src) := by
  have more {written : Bytes} {x : UInt8} (room : written.length + 1 < dstSize) :
      (written ++ [x]).length < dstSize := by
    simpa using room
  induction src using decode_induction generalizing written with
  | empty => simpa [Decodes, decode, manUrlDecodeFrom] using room
  | plus rest ih =>
    rw [decode_plus, manUrlDecodeFrom.eq_def]
    exact .step fun room => ih (more room)
  | escape c a b rest notPlus hex ih =>
    rw [decode.eq_def, manUrlDecodeFrom.eq_def]
    simp only [if_neg notPlus, if_pos hex]
    exact .step fun room => ih (more room)
  | plain c a b rest notPlus other ih =>
    rw [decode.eq_def, manUrlDecodeFrom.eq_def]
    simp only [if_neg notPlus, if_neg other]
    exact .step fun room => ih (more room)
  | short c rest notPlus few ih =>
    rw [decode.eq_def, manUrlDecodeFrom.eq_def]
    simp only [if_neg notPlus]
    exact .step fun room => ih (more room)

/-- So does the packages' decoder. -/
theorem packagesDecodeFrom_spec (room : di < dstSize) :
    Packages.urlDecodeFrom dstSize di src =
      if di + (decode src).length < dstSize then some (decode src) else none := by
  -- One more byte is written, if there is room.
  have step {di : Nat} {decoding : Bytes} {result : Option Bytes} (x : UInt8)
      (rest : di + 1 < dstSize → result =
        if di + 1 + decoding.length < dstSize then some decoding else none) :
      (if dstSize ≤ di + 1 then none else result.map (x :: ·)) =
        if di + (x :: decoding).length < dstSize then some (x :: decoding) else none := by
    rw [List.length_cons, show di + (decoding.length + 1) = di + 1 + decoding.length by omega]
    by_cases full : dstSize ≤ di + 1
    · rw [if_pos full, if_neg (by omega)]
    · rw [if_neg full, rest (by omega), apply_ite (Option.map _)]
      rfl
  induction src using decode_induction generalizing di with
  | empty => simpa [decode, Packages.urlDecodeFrom] using room
  | plus rest ih =>
    rw [decode_plus, Packages.urlDecodeFrom.eq_def]
    exact step 32 ih
  | escape c a b rest notPlus hex ih =>
    rw [decode.eq_def, Packages.urlDecodeFrom.eq_def]
    simp only [if_neg notPlus, if_pos hex]
    exact step (escaped a b) ih
  | plain c a b rest notPlus other ih =>
    rw [decode.eq_def, Packages.urlDecodeFrom.eq_def]
    simp only [if_neg notPlus, if_neg other]
    exact step c ih
  | short c rest notPlus few ih =>
    rw [decode.eq_def, Packages.urlDecodeFrom.eq_def]
    simp only [if_neg notPlus]
    exact step c ih

/-- `hex_value` of a digit is its value, below 16. -/
theorem hexValue_of_isxdigit {a : UInt8} (digit : isxdigit a = true) :
    hexValue a = some (digitValue a) ∧ digitValue a < 16 := by
  revert digit
  revert a
  decide +kernel

/-- The two digits of a byte do not overlap. -/
theorem shift_or_eq {hi lo : UInt8} (high : hi < 16) (low : lo < 16) :
    (hi <<< 4) ||| lo = hi * 16 + lo := by
  have nibbles : ∀ hi lo : Fin 16, (UInt8.ofNat hi.val <<< 4) ||| UInt8.ofNat lo.val =
      UInt8.ofNat hi.val * 16 + UInt8.ofNat lo.val := by
    decide +kernel
  have here := nibbles ⟨hi.toNat, UInt8.lt_iff_toNat_lt.mp high⟩ ⟨lo.toNat, UInt8.lt_iff_toNat_lt.mp low⟩
  simpa only [UInt8.ofNat_toNat] using here

/-- `url_decode` gives back what a well-formed text encodes, when it fits. -/
theorem urlDecodeFrom_of_encodes (encodes : Encodes text value)
    (fits : di + value.length < dstSize) : urlDecodeFrom dstSize di text = some value := by
  induction encodes generalizing di with
  | nil => rfl
  | plain notEscape notPlus _ ih =>
    rw [List.length_cons] at fits
    rw [urlDecodeFrom.eq_def]
    simp only [if_neg notEscape, if_neg notPlus, if_neg (show ¬ dstSize ≤ di + 1 by omega)]
    rw [ih (by omega)]
    rfl
  | plus _ ih =>
    rw [List.length_cons] at fits
    rw [urlDecodeFrom.eq_def]
    simp only [if_neg (show ¬ dstSize ≤ di + 1 by omega)]
    rw [ih (by omega)]
    rfl
  | escape high low _ ih =>
    rw [List.length_cons] at fits
    obtain ⟨hi, below⟩ := hexValue_of_isxdigit high
    obtain ⟨lo, below'⟩ := hexValue_of_isxdigit low
    rw [urlDecodeFrom.eq_def]
    simp only [if_neg (show ¬ dstSize ≤ di + 1 by omega), if_true, hi, lo]
    rw [ih (by omega), shift_or_eq below below']
    rfl

/-! ## The entries -/

/-- A byte is found in the beginning of a string where it is found in the string. -/
theorem strchr_take (s : Bytes) (n : Nat) :
    strchr c (s.take n) = (strchr c s).filter (· < n) := by
  cases found : strchr c s with
  | none =>
    rw [strchr_eq_none] at found
    exact strchr_eq_none.mpr fun member => found (List.mem_of_mem_take member)
  | some i =>
    obtain ⟨front, back, rfl, clean, rfl⟩ := strchr_eq_some.mp found
    by_cases inside : front.length < n
    · rw [Option.filter_some, if_pos (by simpa using inside)]
      refine strchr_eq_some.mpr ⟨front, back.take (n - front.length - 1), ?_, clean, rfl⟩
      rw [List.take_append, List.take_of_length_le inside.le,
        show n - front.length = (n - front.length - 1) + 1 by omega, List.take_succ_cons]
      simp
    · rw [Option.filter_some, if_neg (by simpa using inside), strchr_eq_none,
        List.take_append_of_le_length (by omega)]
      exact fun member => clean (List.mem_of_mem_take member)

theorem lookup_eq (key qs : Bytes) : lookup key qs =
    (entryValue key (qs.take (ampersand qs))).or (lookup key (nextEntry qs)) := by
  rw [nextEntry]
  cases found : strchr 38 qs with
  | none =>
    have clean := strchr_eq_none.mp found
    rw [ampersand, found, Option.getD_none, List.take_length, List.drop_of_length_le (Nat.le_succ _),
      lookup_of_not_mem clean, lookup_nil, Option.or_none]
  | some amp =>
    obtain ⟨entry, rest, rfl, clean, rfl⟩ := strchr_eq_some.mp found
    rw [ampersand, found, Option.getD_some, List.take_left, lookup_append_cons clean]
    simp

/-- No `=` stands where the first entry ends. -/
theorem ampersand_ne (found : strchr 61 qs = some eq) : ampersand qs ≠ eq := by
  obtain ⟨front, back, rfl, clean, rfl⟩ := strchr_eq_some.mp found
  intro same
  cases amp : strchr 38 (front ++ 61 :: back) with
  | none =>
    rw [ampersand, amp, Option.getD_none, List.length_append, List.length_cons] at same
    omega
  | some amp =>
    obtain ⟨front', back', split', _, rfl⟩ := strchr_eq_some.mp amp
    rw [ampersand, ‹strchr 38 _ = _›, Option.getD_some] at same
    have tails := (List.append_inj split' same.symm).2
    cases tails

theorem strchr_within (found : strchr 61 qs = some eq) : eq < qs.length := by
  obtain ⟨front, back, rfl, _, rfl⟩ := strchr_eq_some.mp found
  simp

/-- What the loops find in the first entry. -/
theorem entryValue_take (key qs : Bytes) : entryValue key (qs.take (ampersand qs)) =
    (strchr 61 qs).bind fun eq =>
      if ampersand qs < eq then none
      else if eq = key.length && key.isPrefixOf qs then
        some ((qs.drop (eq + 1)).take (ampersand qs - (eq + 1)))
      else none := by
  rw [entryValue, strchr_take]
  cases found : strchr 61 qs with
  | none => rfl
  | some eq =>
    have different := ampersand_ne found
    by_cases outside : ampersand qs < eq
    · rw [Option.filter_some, if_neg (by simp; omega), Option.bind_none, Option.bind_some,
        if_pos outside]
    · have inside : eq < ampersand qs := by omega
      rw [Option.filter_some, if_pos (by simpa using inside), Option.bind_some, Option.bind_some,
        if_neg outside, List.take_take, Nat.min_eq_left inside.le, List.drop_take]
      have named : qs.take eq = key ↔ (eq = key.length && key.isPrefixOf qs) = true := by
        have within := strchr_within found
        rw [Bool.and_eq_true, decide_eq_true_eq, List.isPrefixOf_iff_prefix]
        constructor
        · rintro rfl
          exact ⟨by rw [List.length_take]; omega, List.take_prefix _ _⟩
        · rintro ⟨rfl, starts⟩
          exact (List.prefix_iff_eq_take.mp starts).symm
      by_cases here : qs.take eq = key
      · rw [if_pos here, if_pos (named.mp here)]
      · rw [if_neg here, if_neg (mt named.mpr here)]

/-- The manual's loop comes to the first entry with the name. -/
theorem manQueryValueFrom_spec (key old : Bytes) (outSize : Nat) (qs : Bytes) :
    manQueryValueFrom key old outSize qs =
      match lookup key qs with
      | none => (old, false)
      | some value =>
        if 512 ≤ value.length then (old, false)
        else
          let (written, whole) := manUrlDecodeFrom outSize [] value
          (cstr (if whole then written else written ++ old.drop written.length), whole) := by
  induction size : qs.length using Nat.strong_induction_on generalizing qs with
  | _ n ih =>
    subst size
    rw [manQueryValueFrom]
    by_cases empty : qs = []
    · subst empty
      rfl
    · have next := ih _ (length_nextEntry empty) (nextEntry qs) rfl
      rw [dif_neg empty, lookup_eq, entryValue_take]
      cases strchr 61 qs with
      | none => exact next
      | some eq =>
        simp only [Option.bind_some]
        split
        · exact next
        · split
          · rfl
          · exact next

/-- So does the packages' loop. -/
theorem queryValueFrom_spec (key : Bytes) (outSize : Nat) (qs : Bytes) :
    Packages.queryValueFrom key outSize qs = (lookup key qs).bind fun value =>
      if 1024 ≤ value.length then none else Packages.urlDecodeInto value outSize := by
  induction size : qs.length using Nat.strong_induction_on generalizing qs with
  | _ n ih =>
    subst size
    rw [Packages.queryValueFrom]
    by_cases empty : qs = []
    · subst empty
      rfl
    · have next := ih _ (length_nextEntry empty) (nextEntry qs) rfl
      rw [dif_neg empty, lookup_eq, entryValue_take]
      cases strchr 61 qs with
      | none => exact next
      | some eq =>
        simp only [Option.bind_some]
        split
        · exact next
        · split
          · rfl
          · exact next

/-! ## Both modules -/

/-- The value a URL gives a key: the text behind the `=` of the first entry with that name. -/
def queryValue (url key : Bytes) : Option Bytes :=
  (strchr 63 url).bind fun question => lookup key (url.drop (question + 1))

/-- The value is a part of the URL. -/
theorem length_queryValue {url : Bytes} (found : queryValue url key = some value) :
    value.length ≤ url.length := by
  rw [queryValue, Option.bind_eq_some_iff] at found
  obtain ⟨question, _, found⟩ := found
  obtain ⟨entry, member, here⟩ := List.exists_of_findSome?_eq_some found
  rw [entryValue, Option.bind_eq_some_iff] at here
  obtain ⟨eq, _, here⟩ := here
  split at here
  · cases here
    have piece := (piece_of_splitOn member).2.length_le
    rw [List.length_drop] at piece
    rw [List.length_drop]
    omega
  · cases here

/-- Its decoding, when it fits with its terminator. -/
def fittingValue (url key : Bytes) (outSize : Nat) : Option Bytes :=
  (queryValue url key).bind fun value =>
    if (decode value).length < outSize then some (decode value) else none

/-- The same, when the value itself has fewer bytes than `limit`. -/
def decodedValue (limit : Nat) (url key : Bytes) (outSize : Nat) : Option Bytes :=
  (queryValue url key).bind fun value =>
    if value.length < limit ∧ (decode value).length < outSize then some (decode value) else none

variable {url : Bytes}

/-- A value that is found in a URL is short enough when the URL is. -/
theorem decodedValue_of_short {limit : Nat} (short : url.length < limit) :
    decodedValue limit url key outSize = fittingValue url key outSize := by
  rw [decodedValue, fittingValue]
  cases found : queryValue url key with
  | none => rfl
  | some value =>
    have bound := length_queryValue found
    rw [Option.bind_some, Option.bind_some]
    simp only [show value.length < limit by omega, true_and]

/-- The manual's answer: the decoding, or 0. -/
theorem manGetQueryValue_spec (url key old : Bytes) (outSize : Nat) :
    (manGetQueryValue url key old outSize).2 = (decodedValue 512 url key outSize).isSome ∧
      ∀ decoding, decodedValue 512 url key outSize = some decoding →
        manGetQueryValue url key old outSize = (cstr decoding, true) := by
  have nothing (absent : decodedValue 512 url key outSize = none) (out : Bytes) :
      (out, false).2 = (decodedValue 512 url key outSize).isSome ∧
        ∀ decoding, decodedValue 512 url key outSize = some decoding →
          (out, false) = (cstr decoding, true) := by
    simp [absent]
  rw [manGetQueryValue]
  by_cases empty : outSize = 0
  · rw [if_pos empty]
    refine nothing ?_ old
    rw [decodedValue, empty]
    cases queryValue url key <;> simp
  · rw [if_neg empty]
    cases question : strchr 63 url with
    | none => exact nothing (by rw [decodedValue, queryValue, question]; rfl) old
    | some question' =>
      simp only [manQueryValueFrom_spec]
      cases found : lookup key (url.drop (question' + 1)) with
      | none =>
        refine nothing ?_ old
        rw [decodedValue, queryValue, question, Option.bind_some, found, Option.bind_none]
      | some value =>
        have here : decodedValue 512 url key outSize =
            if value.length < 512 ∧ (decode value).length < outSize then some (decode value)
            else none := by
          rw [decodedValue, queryValue, question, Option.bind_some, found, Option.bind_some]
        by_cases long : 512 ≤ value.length
        · rw [if_neg (fun both => by omega)] at here
          simpa only [if_pos long] using nothing here old
        · have decodes : Decodes outSize [] (decode value) (manUrlDecodeFrom outSize [] value) :=
            manUrlDecodeFrom_spec (Nat.pos_of_ne_zero empty)
          rw [Decodes, List.length_nil, Nat.zero_add, List.nil_append] at decodes
          simp only [if_neg long]
          by_cases fits : (decode value).length < outSize
          · rw [if_pos fits] at decodes
            rw [if_pos ⟨by omega, fits⟩] at here
            simp [decodes, here]
          · rw [if_neg fits] at decodes
            rw [if_neg (fun both => fits both.2)] at here
            simpa only [decodes] using nothing here _

/-- So is the packages' answer. -/
theorem getQueryValue_spec (url key : Bytes) (outSize : Nat) :
    Packages.getQueryValue url key outSize = (decodedValue 1024 url key outSize).map cstr := by
  rw [Packages.getQueryValue, decodedValue, queryValue]
  cases strchr 63 url with
  | none => rfl
  | some question =>
    simp only [queryValueFrom_spec, Option.bind_some]
    refine congrArg (fun decoded => Option.map cstr (Option.bind _ decoded)) (funext fun value => ?_)
    by_cases long : 1024 ≤ value.length
    · rw [if_pos long, if_neg (fun both => by omega)]
    · rw [if_neg long, Packages.urlDecodeInto]
      by_cases empty : outSize = 0
      · rw [if_pos empty, if_neg (fun both => by omega)]
      · rw [if_neg empty, packagesDecodeFrom_spec (Nat.pos_of_ne_zero empty), Nat.zero_add]
        simp only [show value.length < 1024 by omega, true_and]

/-- Both modules come to an end of every query string, each round being over fewer bytes, and for a
URL of the length the server lets through both give the decoding of the value of the first entry
with the name, or nothing; a well-formed encoding gives back what it encodes, in `url_decode` too. -/
theorem query_values (url key old : Bytes) (outSize : Nat) (short : url.length ≤ 511) :
    (manGetQueryValue url key old outSize).2 = (fittingValue url key outSize).isSome ∧
    (∀ decoding, fittingValue url key outSize = some decoding →
      manGetQueryValue url key old outSize = (cstr decoding, true)) ∧
    Packages.getQueryValue url key outSize = (fittingValue url key outSize).map cstr ∧
    ∀ encoded v, queryValue url key = some encoded → Encodes encoded v → 0 ∉ v →
      v.length < outSize →
        manGetQueryValue url key old outSize = (v, true) ∧
          Packages.getQueryValue url key outSize = some v ∧
          urlDecode encoded outSize = some v := by
  have man := manGetQueryValue_spec url key old outSize
  rw [decodedValue_of_short (by omega)] at man
  have packages := getQueryValue_spec url key outSize
  rw [decodedValue_of_short (by omega)] at packages
  refine ⟨man.1, man.2, packages, fun encoded v found encodes clean fits => ?_⟩
  have decoded := decode_of_encodes encodes
  have here : fittingValue url key outSize = some v := by
    rw [fittingValue, found, Option.bind_some, decoded, if_pos fits]
  have uncut : cstr v = v := by
    rw [cstr, List.takeWhile_eq_self_iff]
    intro c member
    exact decide_eq_true fun zero => clean (zero ▸ member)
  refine ⟨?_, ?_, ?_⟩
  · rw [man.2 v here, uncut]
  · rw [packages, here, Option.map_some, uncut]
  · rw [urlDecode, if_neg (by omega), urlDecodeFrom_of_encodes encodes (by omega)]

/-- The entry behind one without `=` is read, and its escapes are undone. -/
theorem query_values_search :
    manGetQueryValue (lit "/api/man/search?x&q=a%2Db+c") (lit "q") [] 256 = (lit "a-b c", true) ∧
      Packages.getQueryValue (lit "/api/man/search?x&q=a%2Db+c") (lit "q") 256 = some (lit "a-b c") := by
  have encodes : Encodes (lit "a%2Db+c") (lit "a-b c") :=
    .plain (by decide) (by decide) (.escape (a := 50) (b := 68) rfl rfl
      (.plain (by decide) (by decide) (.plus (.plain (by decide) (by decide) .nil))))
  obtain ⟨man, packages, -⟩ := (query_values (lit "/api/man/search?x&q=a%2Db+c") (lit "q") [] 256
    (by decide +kernel)).2.2.2 (lit "a%2Db+c") (lit "a-b c") (by decide +kernel) encodes
    (by decide +kernel) (by decide +kernel)
  exact ⟨man, packages⟩

end Miniweb.QueryProofs
