import Miniweb.Lib.CString

/-! Writing text into a block of memory of fixed size, piece by piece, as `vsnprintf`
does it, until a piece does not fit. A write outside of the block would show: it makes
the block longer. -/
namespace Miniweb.Lib.Output

open Miniweb.Lib.CString

/-- The block and where the next piece goes. -/
structure Buffer where
  mem : Bytes
  offset : Nat

/-- A program that writes, and may give up. -/
abbrev Writer := EStateM Unit Buffer

/-- The buffer a program leaves behind, whether it gives up or not. -/
def left (w : Writer Unit) (b : Buffer) : Buffer :=
  match w.run b with
  | .ok () b' => b'
  | .error () b' => b'

/-- The bytes stored from an offset on. -/
def store (mem : Bytes) (offset : Nat) (bytes : Bytes) : Bytes :=
  mem.take offset ++ bytes ++ mem.drop (offset + bytes.length)

/-- What `vsnprintf` stores where there is room for so many bytes. -/
def stored (room : Nat) (text : Bytes) : Bytes := if room = 0 then [] else text.take (room - 1) ++ [0]

variable {size : Nat} {b b' : Buffer} {before text text' : Bytes} {w w' : Writer Unit}

theorem length_store {mem : Bytes} {offset : Nat} {bytes : Bytes}
    (inside : offset + bytes.length ≤ mem.length) : (store mem offset bytes).length = mem.length := by
  simp only [store, List.length_append, List.length_take, List.length_drop]
  omega

theorem length_stored_le (room : Nat) (text : Bytes) : (stored room text).length ≤ room := by
  unfold stored
  split
  · exact Nat.zero_le _
  · simp only [List.length_append, List.length_take, List.length_singleton]
    omega

/-- The block has its size and starts with this text, and the next piece goes behind
it. -/
structure Holds (size : Nat) (b : Buffer) (text : Bytes) : Prop where
  length : b.mem.length = size
  offset : b.offset = text.length
  room : text.length < size
  content : text <+: b.mem

/-- There is a terminator at the end of the text. -/
def Terminated (b : Buffer) : Prop := b.mem[b.offset]? = some 0

/-- The program writes this text if it fits with a terminator, and gives up if not; in
either case it stays inside the block. -/
def Emits (size : Nat) (w : Writer Unit) (text : Bytes) : Prop :=
  ∀ b before, Holds size b before →
    if before.length + text.length < size then
      ∃ b', w.run b = .ok () b' ∧ Holds size b' (before ++ text) ∧
        (Terminated b ∨ text ≠ [] → Terminated b')
    else ∃ b', w.run b = .error () b' ∧ b'.mem.length = size

/-- Writing nothing. -/
theorem Emits.pure : Emits size (pure ()) [] := by
  intro b before holds
  rw [if_pos (by simpa using holds.room)]
  refine ⟨b, rfl, by simpa using holds, ?_⟩
  rintro (terminated | nonempty)
  · exact terminated
  · exact absurd rfl nonempty

/-- One program behind another writes one text behind the other. -/
theorem Emits.bind (first : Emits size w text) (second : Emits size w' text') :
    Emits size (w >>= fun _ => w') (text ++ text') := by
  intro b before holds
  have ran := first b before holds
  rw [List.length_append]
  by_cases fits : before.length + text.length < size
  · rw [if_pos fits] at ran
    obtain ⟨middle, ran, holds', terminated⟩ := ran
    have ran' := second middle _ holds'
    rw [List.length_append, Nat.add_assoc] at ran'
    split at ran'
    · rename_i all
      rw [if_pos all]
      obtain ⟨b', ran', final, terminated'⟩ := ran'
      refine ⟨b', by simp [EStateM.run_bind, ran, ran'], by simpa using final, fun ended => ?_⟩
      apply terminated'
      by_cases more : text' = []
      · subst more
        exact .inl (terminated (by simpa using ended))
      · exact .inr more
    · rename_i tooLong
      rw [if_neg tooLong]
      obtain ⟨b', ran', inside⟩ := ran'
      exact ⟨b', by simp [EStateM.run_bind, ran, ran'], inside⟩
  · rw [if_neg fits] at ran
    obtain ⟨b', ran, inside⟩ := ran
    rw [if_neg (by omega)]
    exact ⟨b', by simp [EStateM.run_bind, ran], inside⟩

/-- A loop writes what its rounds write. -/
theorem Emits.forM {α : Type} {f : α → Writer Unit} {each : α → Bytes}
    (round : ∀ x, Emits size (f x) (each x)) (xs : List α) :
    Emits size (xs.forM f) (xs.flatMap each) := by
  induction xs with
  | nil => exact Emits.pure
  | cons x xs ih =>
    rw [List.flatMap_cons]
    exact (round x).bind ih

/-- What is left in the block is the text, as a string. -/
theorem cstr_of_holds (holds : Holds size b text) (terminated : Terminated b) (clean : 0 ∉ text) :
    cstr b.mem = text := by
  obtain ⟨rest, whole⟩ := holds.content
  rw [Terminated, holds.offset, ← whole, List.getElem?_append_right (Nat.le_refl _), Nat.sub_self]
    at terminated
  cases rest with
  | nil => cases terminated
  | cons c rest =>
    cases terminated
    rw [← whole, cstr, List.takeWhile_append_of_pos]
    · simp
    · intro c member
      simp only [ne_eq, decide_eq_true_eq]
      rintro rfl
      exact clean member

/-- The program run on a fresh block. -/
theorem Emits.run_fresh (emits : Emits size w text) {mem : Bytes} (allocated : mem.length = size)
    (positive : 0 < size) (nonempty : text ≠ []) :
    if text.length < size then
      ∃ b', w.run ⟨mem, 0⟩ = .ok () b' ∧ Holds size b' text ∧ Terminated b'
    else ∃ b', w.run ⟨mem, 0⟩ = .error () b' ∧ b'.mem.length = size := by
  have ran := emits ⟨mem, 0⟩ [] ⟨allocated, rfl, positive, List.nil_prefix⟩
  simp only [List.length_nil, Nat.zero_add, List.nil_append] at ran
  split
  · rename_i fits
    rw [if_pos fits] at ran
    obtain ⟨b', ran, holds, terminated⟩ := ran
    exact ⟨b', ran, holds, terminated (.inr nonempty)⟩
  · rename_i tooLong
    rw [if_neg tooLong] at ran
    exact ran

end Miniweb.Lib.Output
