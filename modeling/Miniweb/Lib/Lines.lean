import Mathlib
import Miniweb.Lib.CString
import Miniweb.Lib.UpTo

/-! What a text read with `fgets` is next to its lines. A reader that takes no
notice of a newline at the end of what it is handed cannot tell the two apart
as long as every line fits the buffer; a longer line reaches it in pieces. -/
namespace Miniweb.Lib.Lines

open Miniweb.Lib.CString Miniweb.Lib.UpTo

variable {σ : Type*} {room left : Nat} {chunk line rest : Bytes}

/-- A line that fits is read with its newline. -/
theorem fgetsChunks_line (clean : (10 : UInt8) ∉ line) (fits : line.length < left) :
    fgetsChunks room left chunk (line ++ 10 :: rest) =
      (chunk ++ line ++ [10]) :: fgetsChunks room room [] rest := by
  induction line generalizing left chunk with
  | nil => simp [fgetsChunks]
  | cons c line ih =>
    obtain ⟨here, later⟩ := List.ne_and_not_mem_of_not_mem_cons clean
    rw [List.length_cons] at fits
    rw [List.cons_append, fgetsChunks, if_neg (by simp [here.symm]; omega),
      ih later (by omega)]
    simp

/-- A line that fills the buffer is read without its newline. -/
theorem fgetsChunks_full (clean : (10 : UInt8) ∉ line) (fills : line.length = left)
    (nonempty : line ≠ []) :
    fgetsChunks room left chunk (line ++ rest) =
      (chunk ++ line) :: fgetsChunks room room [] rest := by
  induction line generalizing left chunk with
  | nil => exact absurd rfl nonempty
  | cons c line ih =>
    obtain ⟨here, later⟩ := List.ne_and_not_mem_of_not_mem_cons clean
    rw [List.length_cons] at fills
    by_cases last : line = []
    · subst last
      have : left ≤ 1 := by simp at fills; omega
      simp [fgetsChunks, this]
    · have : 0 < line.length := List.length_pos_of_ne_nil last
      rw [List.cons_append, fgetsChunks, if_neg (by simp [here.symm]; omega),
        ih later (by omega) last]
      simp

/-- The end of the text ends the last line. -/
theorem fgetsChunks_end (clean : (10 : UInt8) ∉ line) (fits : line.length < left) :
    fgetsChunks room left chunk line = if chunk ++ line = [] then [] else [chunk ++ line] := by
  induction line generalizing left chunk with
  | nil => simp [fgetsChunks]
  | cons c line ih =>
    obtain ⟨here, later⟩ := List.ne_and_not_mem_of_not_mem_cons clean
    rw [List.length_cons] at fits
    rw [fgetsChunks, if_neg (by simp [here.symm]; omega), ih later (by omega)]
    simp

/-- A reader, and what it makes of the end of a line. -/
structure Reader (step : σ → Bytes → σ) : Prop where
  newline : ∀ state line, step state (line ++ [10]) = step state line
  empty : ∀ state, step state [] = state

variable {step : σ → Bytes → σ}

/-- A line with its newline, and the rest of the text. -/
theorem foldl_chunks_line (reader : Reader step) (state : σ) (clean : (10 : UInt8) ∉ line)
    (fits : line.length ≤ room) (positive : 0 < room) :
    (fgetsChunks room room [] (line ++ 10 :: rest)).foldl step state =
      (fgetsChunks room room [] rest).foldl step (step state line) := by
  by_cases full : line.length = room
  · -- the newline comes as a chunk of its own
    rw [fgetsChunks_full clean full (by rintro rfl; simp at full; omega)]
    have nothing : (10 : UInt8) ∉ ([] : Bytes) := List.not_mem_nil
    have alone : fgetsChunks room room [] (10 :: rest) =
        ([] ++ [] ++ [10]) :: fgetsChunks room room [] rest :=
      fgetsChunks_line nothing positive
    rw [alone, List.foldl_cons, List.foldl_cons, reader.newline, List.nil_append, List.nil_append,
      reader.empty]
  · rw [fgetsChunks_line clean (by omega), List.foldl_cons, List.nil_append, reader.newline]

/-- The last line. -/
theorem foldl_chunks_end (reader : Reader step) (state : σ) (clean : (10 : UInt8) ∉ line)
    (fits : line.length ≤ room) (positive : 0 < room) :
    (fgetsChunks room room [] line).foldl step state = step state line := by
  by_cases full : line.length = room
  · have whole : fgetsChunks room room [] (line ++ []) =
        ([] ++ line) :: fgetsChunks room room [] [] :=
      fgetsChunks_full clean full (by rintro rfl; simp at full; omega)
    rw [List.append_nil] at whole
    rw [whole]
    simp [fgetsChunks]
  · rw [fgetsChunks_end clean (by omega), List.nil_append]
    split
    · rename_i nothing
      rw [nothing, reader.empty, List.foldl_nil]
    · rfl

/-- However long a line is, the reader is handed its first piece first. -/
theorem foldl_chunks_first (reader : Reader step) (state : σ) (clean : (10 : UInt8) ∉ line)
    (positive : 0 < room) (ends : rest = [] ∨ ∃ later, rest = 10 :: later) :
    ∃ chunks : List Bytes, (fgetsChunks room room [] (line ++ rest)).foldl step state =
      chunks.foldl step (step state (line.take room)) := by
  by_cases fits : line.length < room
  · rw [List.take_of_length_le fits.le]
    rcases ends with rfl | ⟨later, rfl⟩
    · refine ⟨[], ?_⟩
      rw [List.append_nil, foldl_chunks_end reader state clean fits.le positive, List.foldl_nil]
    · exact ⟨_, foldl_chunks_line reader state clean fits.le positive⟩
  · have front : (line.take room).length = room := by rw [List.length_take]; omega
    refine ⟨fgetsChunks room room [] (line.drop room ++ rest), ?_⟩
    rw [← List.take_append_drop room line, List.append_assoc,
      fgetsChunks_full (fun member => clean (List.mem_of_mem_take member)) front
        (List.ne_nil_of_length_pos (by omega)), List.foldl_cons]
    simp

/-- Behind a line at which the reader stops, its state stays. -/
def Stops (step : σ → Bytes → σ) (stops : Bytes → Bool) : Prop :=
  ∀ state line later, stops line = true → step (step state line) later = step state line

theorem Stops.foldl {stops : Bytes → Bool} (stuck : Stops step stops) (state : σ)
    (stopped : stops line = true) (later : List Bytes) :
    later.foldl step (step state line) = step state line := by
  induction later with
  | nil => rfl
  | cons other later ih => rw [List.foldl_cons, stuck state line other stopped, ih]

/-- Where every line fits up to the one the reader stops at, reading through the buffer is reading
line by line. -/
theorem foldl_fgetsChunks {stops : Bytes → Bool} (reader : Reader step) (stuck : Stops step stops)
    (positive : 0 < room) (state : σ) (text : Bytes)
    (fit : ∀ line ∈ upTo stops 1 (text.splitOn 10), line.length ≤ room) :
    (fgetsChunks room room [] text).foldl step state = (text.splitOn 10).foldl step state := by
  by_cases separated : (10 : UInt8) ∈ text
  · obtain ⟨line, rest, rfl, clean⟩ := List.eq_append_cons_of_mem separated
    rw [List.splitOn_append_cons_self_of_not_mem clean] at fit ⊢
    rw [foldl_chunks_line reader state clean (fit line (mem_upTo_head _ _ _ _)) positive,
      List.foldl_cons]
    cases stopped : stops line with
    | true => rw [stuck.foldl state stopped, stuck.foldl state stopped]
    | false =>
      exact foldl_fgetsChunks reader stuck positive _ rest
        fun other member => fit other (mem_upTo_tail stopped member)
  · rw [List.splitOn_eq_singleton separated] at fit ⊢
    rw [foldl_chunks_end reader state separated (fit text (mem_upTo_head _ _ _ _)) positive,
      List.foldl_cons, List.foldl_nil]
termination_by text.length

end Miniweb.Lib.Lines
