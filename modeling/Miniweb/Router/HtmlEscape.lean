import Miniweb.Lib.Output

/-! `html_escape` of `src/router/route_table.c` with the block it writes to. The handler of
static files takes what it returns; here are its two loops, each with its own table. The
length of a string is small enough for six times as much to be a size. -/
namespace Miniweb.Router

open Miniweb.Lib.CString
open Miniweb.Lib.Output (store)

/-- One round of the first loop. -/
def htmlEscapeCount (len : Nat) (c : UInt8) : Nat :=
  if c = 38 then len + 5
  else if c = 60 ∨ c = 62 then len + 4
  else if c = 34 then len + 6
  else len + 1

/-- The length the first loop ends with. -/
def htmlEscapeLength (s : Bytes) : Nat := s.foldl htmlEscapeCount 0

/-- `memcpy` of `n` bytes to `w`; `none` when some of them are outside of the block. -/
def copyInto (block : Bytes) (w : Nat) (text : Bytes) (n : Nat) : Option Bytes :=
  if w + n ≤ block.length then some (store block w (text.take n)) else none

/-- What a round of the second loop copies, and how far it moves on. -/
def htmlEscapePiece (c : UInt8) : Bytes × Nat :=
  if c = 38 then (lit "&amp;", 5)
  else if c = 60 then (lit "&lt;", 4)
  else if c = 62 then (lit "&gt;", 4)
  else if c = 34 then (lit "&quot;", 6)
  else ([c], 1)

/-- The second loop: the block and where it ends, unless a write is outside. -/
def htmlEscapeWrite (block : Bytes) (w : Nat) : Bytes → Option (Bytes × Nat)
  | [] => some (block, w)
  | c :: rest =>
    let (text, n) := htmlEscapePiece c
    match copyInto block w text n with
    | none => none
    | some block => htmlEscapeWrite block (w + n) rest

/-- `html_escape`: the block it returns, `none` for its NULL. The outer `none` is a write
outside of the block. `malloc` gives blocks of the size asked for, or none. -/
def htmlEscapeBlock (malloc : (size : Nat) → Option (List.Vector UInt8 size)) :
    Option Bytes → Option (Option Bytes)
  | none => some ((malloc 1).map fun _ => [0])
  | some s =>
    match malloc (htmlEscapeLength s + 1) with
    | none => some none
    | some block =>
      match htmlEscapeWrite block.toList 0 s with
      | none => none
      | some (block, w) => (copyInto block w [0] 1).map some

end Miniweb.Router
