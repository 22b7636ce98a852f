import Miniweb.Lib.CString

/-! Formatting into a block through a pointer and the size that is left, both moved by what
`snprintf` returns: the length of the whole text, also when it was cut. The size is unsigned,
so it wraps when the text is longer than it. -/
namespace Miniweb.Lib.Printf

open Miniweb.Lib.CString

/-- A call of `snprintf`: where it starts in the block, the size it is given, and the text its
format makes. -/
structure Call where
  start : Nat
  size : UInt64
  text : Bytes
  deriving DecidableEq

/-- The pointer, the size, and the calls made so far. -/
structure Cursor where
  ptr : Nat := 0
  size : UInt64
  calls : List Call := []

/-- `written = snprintf(ptr, size, ..); ptr += written; size -= written;` -/
def Cursor.print (c : Cursor) (text : Bytes) : Cursor where
  ptr := c.ptr + text.length
  size := c.size - UInt64.ofNat text.length
  calls := c.calls ++ [⟨c.ptr, c.size, text⟩]

/-- Every call starts inside the block or at its end, with the size that is left of it. -/
def Inside (room : Nat) (calls : List Call) : Prop :=
  ∀ call ∈ calls, call.start ≤ room ∧ call.size.toNat = room - call.start

/-- The pointer is inside the block, and the size is what is left. -/
structure Sound (room : Nat) (c : Cursor) : Prop where
  bound : c.ptr ≤ room
  left : c.size.toNat = room - c.ptr
  inside : Inside room c.calls

variable {room : Nat} {c : Cursor} {text : Bytes}

/-- A call from a sound cursor stays inside, whatever it prints. -/
theorem Sound.inside_print (sound : Sound room c) (text : Bytes) :
    Inside room (c.print text).calls := by
  intro call member
  rcases List.mem_append.mp member with before | this
  · exact sound.inside call before
  · rw [List.mem_singleton.mp this]
    exact ⟨sound.bound, sound.left⟩

/-- And leaves a sound cursor when the text fits. -/
theorem Sound.print (sound : Sound room c) (fits : c.ptr + text.length ≤ room) :
    Sound room (c.print text) := by
  have left := sound.left
  have length : (UInt64.ofNat text.length).toNat = text.length := by
    have limit : UInt64.size = 2 ^ 64 := rfl
    have := c.size.toNat_lt
    exact UInt64.toNat_ofNat_of_lt' (by omega)
  refine ⟨fits, ?_, sound.inside_print text⟩
  show (c.size - UInt64.ofNat text.length).toNat = room - (c.ptr + text.length)
  rw [UInt64.toNat_sub_of_le]
  · omega
  · rw [UInt64.le_iff_toNat_le]
    omega

/-- What was printed before is still there. -/
theorem calls_prefix_print (c : Cursor) (text : Bytes) : c.calls <+: (c.print text).calls :=
  List.prefix_append _ _

/-- The call itself. -/
theorem call_mem_print (c : Cursor) (text : Bytes) :
    ⟨c.ptr, c.size, text⟩ ∈ (c.print text).calls := by
  simp [Cursor.print]

/-! ## Text that is written whole -/

/-- The block begins with `text`, no call has been cut, and the pointer is behind it. -/
structure Filled (room : Nat) (c : Cursor) (text : Bytes) : Prop where
  sound : Sound room c
  ptr : c.ptr = text.length
  printed : c.calls.flatMap Call.text = text
  whole : ∀ call ∈ c.calls, call.text.length < call.size.toNat

/-- A text that fits with its terminator is added. -/
theorem Filled.print {before : Bytes} (filled : Filled room c before)
    (fits : before.length + text.length < room) : Filled room (c.print text) (before ++ text) where
  sound := filled.sound.print (by rw [filled.ptr]; exact fits.le)
  ptr := by rw [List.length_append, ← filled.ptr]; rfl
  printed := by
    rw [Cursor.print, List.flatMap_append, filled.printed]
    simp
  whole := by
    intro call member
    rcases List.mem_append.mp member with earlier | this
    · exact filled.whole call earlier
    · rw [List.mem_singleton.mp this]
      have left := filled.sound.left
      have at' := filled.ptr
      show text.length < c.size.toNat
      omega

/-- So is the first text. -/
theorem filled_print {size : UInt64} (fits : text.length < size.toNat) :
    Filled size.toNat (({ size } : Cursor).print text) text := by
  have empty : Filled size.toNat { size } [] :=
    ⟨⟨Nat.zero_le _, (Nat.sub_zero _).symm, fun call member => by cases member⟩, rfl, rfl,
      fun call member => by cases member⟩
  have room : ([] : Bytes).length + text.length < size.toNat := by simpa using fits
  simpa using empty.print room

end Miniweb.Lib.Printf
