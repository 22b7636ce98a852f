import Miniweb.Lib.CString

/-! `src/http/utils.c`: `url_decode`, which refuses an escape that is not well formed. -/
namespace Miniweb.Http

open Miniweb.Lib.CString

/-- `hex_value`; `none` for its -1. -/
def hexValue (c : UInt8) : Option UInt8 :=
  if 48 ≤ c && c ≤ 57 then some (c - 48)
  else if 97 ≤ c && c ≤ 102 then some (10 + (c - 97))
  else if 65 ≤ c && c ≤ 70 then some (10 + (c - 65))
  else none

/-- The loop of `url_decode` with `out` bytes written to a buffer of `dstLen`. -/
def urlDecodeFrom (dstLen : Nat) : Nat → Bytes → Option Bytes
  | _, [] => some []
  | out, c :: rest =>
    if dstLen ≤ out + 1 then none
    else if c = 37 then
      match rest with
      | a :: b :: rest' =>
        match hexValue a, hexValue b with
        | some hi, some lo => (urlDecodeFrom dstLen (out + 1) rest').map (((hi <<< 4) ||| lo) :: ·)
        | _, _ => none
      | _ => none
    else if c = 43 then (urlDecodeFrom dstLen (out + 1) rest).map (32 :: ·)
    else (urlDecodeFrom dstLen (out + 1) rest).map (c :: ·)

/-- `url_decode`: the bytes written before the terminator, `none` for its -1. -/
def urlDecode (src : Bytes) (dstLen : Nat) : Option Bytes :=
  if dstLen = 0 then none else urlDecodeFrom dstLen 0 src

end Miniweb.Http
