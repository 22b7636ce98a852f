import Miniweb.Modules.Packages
import Miniweb.NetworkingProofs
import Miniweb.PackagesProofs

/-! What `json_escape_string` writes. Its block has room for the longest escape of every
byte, but the loop stops as soon as seven more bytes might not fit: one more than an escape
takes, and one more for a terminator that has its own place already. So the last byte is
dropped, and others with it, unless the ones in front of it left that much over. -/
namespace Miniweb.EscapeProofs

open Miniweb.Lib.CString Miniweb.Lib.Json Miniweb.Lib.Output Miniweb.Modules
open Miniweb.Modules.Packages (PkgEnv escapeByte escapeFrom jsonEscapeString)

/-! ## One byte -/

/-- The bytes with an escape of two letters of their own, other than quote and backslash. -/
def lettered : Bytes := [8, 12, 10, 13, 9]

/-- The bytes written as `\u00` and two digits. -/
def numbered (c : UInt8) : Bool := c < 32 && !lettered.contains c

variable {c : UInt8} {s : Bytes}

/-- Apart from these letters, the two escapes are the same. -/
theorem escapeByte_eq (plain : c ∉ lettered) : escapeByte c = escape c := by
  simp only [lettered, List.mem_cons, List.not_mem_nil, or_false, not_or] at plain
  obtain ⟨backspace, formFeed, newline, return', tab⟩ := plain
  unfold escapeByte escape
  simp only [backspace, formFeed, newline, return', tab, if_false]
  by_cases special : c = 34 ∨ c = 92
  · rw [if_pos special]
    rcases special with rfl | rfl
    · rfl
    · rfl
  · rw [if_neg special]
    obtain ⟨notQuote, notBackslash⟩ := not_or.mp special
    rw [if_neg notQuote, if_neg notBackslash]

/-- Every byte is read back from its escape. -/
theorem escapes_escapeByte : Escapes escapeByte := by
  intro c rest
  by_cases letter : c ∈ lettered
  · simp only [lettered, List.mem_cons, List.not_mem_nil, or_false] at letter
    rcases letter with rfl | rfl | rfl | rfl | rfl <;>
    · rw [unquote.eq_def]
      rfl
  · rw [escapeByte_eq letter]
    exact escapes_escape c rest

/-- An escape with a number is six bytes long, any other two at most. -/
theorem length_escapeByte (c : UInt8) :
    if numbered c then (escapeByte c).length = 6
    else 0 < (escapeByte c).length ∧ (escapeByte c).length ≤ 2 := by
  by_cases letter : c ∈ lettered
  · simp only [lettered, List.mem_cons, List.not_mem_nil, or_false] at letter
    rcases letter with rfl | rfl | rfl | rfl | rfl <;> decide
  · rw [escapeByte_eq letter]
    have number : numbered c = decide (c < 32) := by simp [numbered, letter]
    rw [number, escape]
    by_cases special : c = 34 ∨ c = 92
    · rcases special with rfl | rfl <;> decide
    · rw [if_neg special]
      by_cases small : c < 32
      · simp [small, hex4]
      · simp [small]

/-! ## The loop -/

/-- How many bytes the escapes of a string take. -/
def escapedLength (s : Bytes) : Nat := (s.flatMap escapeByte).length

theorem escapedLength_cons (c : UInt8) (s : Bytes) :
    escapedLength (c :: s) = (escapeByte c).length + escapedLength s := by
  simp [escapedLength]

/-- The loop writes the escapes of a part of the string from its start; of all of it exactly
when there is room enough in front of the last byte. -/
theorem escapeFrom_eq (maxOut d : Nat) (s : Bytes) :
    ∃ k ≤ s.length, escapeFrom maxOut d s = (s.take k).flatMap escapeByte ∧
      (k = s.length ↔ s = [] ∨ d + escapedLength s.dropLast + 7 < maxOut - 1) := by
  induction s generalizing d with
  | nil => exact ⟨0, Nat.le_refl _, rfl, by simp⟩
  | cons c rest ih =>
    rw [escapeFrom]
    by_cases stops : maxOut - 1 ≤ d + 7
    · refine ⟨0, Nat.zero_le _, by simp [stops], ?_⟩
      constructor
      · intro whole
        cases whole
      · rintro (empty | room)
        · cases empty
        · omega
    · obtain ⟨k, bound, text, whole⟩ := ih (d + (escapeByte c).length)
      refine ⟨k + 1, Nat.succ_le_succ bound, ?_, ?_⟩
      · rw [if_neg stops, text, List.take_succ_cons, List.flatMap_cons]
      · rw [List.length_cons, Nat.add_right_cancel_iff, whole]
        cases rest with
        | nil =>
          simp only [true_or, List.dropLast_singleton, escapedLength, List.flatMap_nil,
            List.length_nil, reduceCtorEq, false_or, true_iff]
          omega
        | cons c' rest =>
          rw [List.dropLast_cons_cons, escapedLength_cons]
          simp only [reduceCtorEq, false_or]
          omega

/-- What the bytes of a string need at most, and when they need all of it. -/
theorem escapedLength_bound (s : Bytes) :
    if s.all numbered then escapedLength s = 6 * s.length
    else escapedLength s + 4 ≤ 6 * s.length := by
  induction s with
  | nil => simp [escapedLength]
  | cons c s ih =>
    have one := length_escapeByte c
    rw [escapedLength_cons, List.all_cons, List.length_cons]
    cases number : numbered c with
    | true =>
      rw [number] at one
      simp only [if_true] at one
      rw [Bool.true_and]
      split
      · rename_i all
        rw [if_pos all] at ih
        omega
      · rename_i some
        rw [if_neg some] at ih
        omega
    | false =>
      rw [number] at one
      simp only [Bool.false_eq_true, if_false] at one
      rw [Bool.false_and]
      simp only [Bool.false_eq_true, if_false]
      split at ih
      · omega
      · omega

/-- The condition on a string: it is empty, or some byte in front of its last one is not
written with a number. -/
def KeptWhole (s : Bytes) : Prop := s = [] ∨ s.dropLast.all numbered = false

instance (s : Bytes) : Decidable (KeptWhole s) := inferInstanceAs (Decidable (_ ∨ _))

/-- In a block made for the string, all of it is escaped under this condition only. -/
theorem escapeFrom_whole (s : Bytes) :
    ∃ k ≤ s.length, escapeFrom (s.length * 6 + 1) 0 s = (s.take k).flatMap escapeByte ∧
      (k = s.length ↔ KeptWhole s) := by
  obtain ⟨k, bound, text, whole⟩ := escapeFrom_eq (s.length * 6 + 1) 0 s
  refine ⟨k, bound, text, whole.trans ?_⟩
  unfold KeptWhole
  by_cases empty : s = []
  · simp [empty]
  · have positive := List.length_pos_iff.mpr empty
    have needs := escapedLength_bound s.dropLast
    rw [List.length_dropLast] at needs
    simp only [empty, false_or]
    cases all : s.dropLast.all numbered with
    | true =>
      rw [if_pos all] at needs
      simp only [Bool.true_eq_false, iff_false]
      omega
    | false =>
      rw [if_neg (by simp [all])] at needs
      simp only [iff_true]
      omega

/-! ## The two escapers -/

/-- What is left in a block by `networking_json_append_escaped`, as a string. -/
def networkingEscaped (mem : Bytes) (s : Bytes) : Bytes :=
  cstr (left (networkingJsonAppendEscaped mem.length (some s)) ⟨mem, 0⟩).mem

/-- In a block with room for it, it is the string as JSON quotes it. -/
theorem networkingEscaped_eq {mem : Bytes} (room : (quote s).length < mem.length) :
    networkingEscaped mem s = 34 :: (s.flatMap escape ++ [34]) := by
  have emits : Emits mem.length (networkingJsonAppendEscaped mem.length (some s)) (quote s) :=
    NetworkingProofs.appendEscaped_emits s
  have written := emits.run_fresh rfl (by omega) (by simp [quote])
  rw [if_pos room] at written
  obtain ⟨b, ran, holds, terminated⟩ := written
  have clean : 0 ∉ quote s := by
    have := zero_not_mem_render (.string s)
    rwa [render] at this
  rw [networkingEscaped, left, ran]
  exact cstr_of_holds holds terminated clean

/-- The text is a body of a JSON string that stands for `s`, and for what the other escaper
writes between its quotes. A byte from 0x80 on stands for itself, whatever text it is part of. -/
structure StandsFor (escaped s : Bytes) : Prop where
  decodes : decodeBody escaped = some s
  agrees : ∀ mem : Bytes, (quote s).length < mem.length → ∃ body,
    networkingEscaped mem s = 34 :: (body ++ [34]) ∧ decodeBody body = decodeBody escaped

/-- For every string, when there is memory: `json_escape_string` returns a text that stands
for the string if and only if the string is empty or has, in front of its last byte, one that
is not written with a number. -/
theorem jsonEscapeString_standsFor_iff (env : PkgEnv) (s : Bytes)
    (allocated : env.malloc (.escape s) = true) :
    StandsFor (jsonEscapeString env s) s ↔ KeptWhole s := by
  obtain ⟨k, bound, text, whole⟩ := escapeFrom_whole s
  have escaped : jsonEscapeString env s = (s.take k).flatMap escapeByte := by
    rw [jsonEscapeString, if_pos allocated, text]
  have decoded : decodeBody (jsonEscapeString env s) = some (s.take k) := by
    rw [escaped]
    exact decodeBody_flatMap escapes_escapeByte _
  rw [← whole]
  constructor
  · intro stands
    have same := Option.some.inj (decoded.symm.trans stands.decodes)
    have length := congrArg List.length same
    rw [List.length_take] at length
    omega
  · intro all
    subst all
    rw [List.take_length] at decoded
    refine ⟨decoded, fun mem room => ⟨s.flatMap escape, networkingEscaped_eq room, ?_⟩⟩
    rw [decoded]
    exact decodeBody_flatMap escapes_escape s

/-- A name with a tab in it. -/
theorem jsonEscapeString_standsFor_tab :
    StandsFor (jsonEscapeString PackagesProofs.withoutPkgInfo (lit "a\tb")) (lit "a\tb") :=
  (jsonEscapeString_standsFor_iff PackagesProofs.withoutPkgInfo (lit "a\tb") rfl).mpr (by decide)

/-- A string of one byte is dropped. -/
theorem jsonEscapeString_drops :
    ¬ ∀ (env : PkgEnv) (s : Bytes), env.malloc (.escape s) = true →
      StandsFor (jsonEscapeString env s) s := by
  intro always
  have stands := (always PackagesProofs.withoutPkgInfo (lit "a") rfl).decodes
  have dropped : decodeBody (jsonEscapeString PackagesProofs.withoutPkgInfo (lit "a")) = some [] := by
    decide
  rw [dropped] at stands
  exact absurd stands (by decide)

end Miniweb.EscapeProofs
