import Mathlib
import Miniweb.Lib.CString

/-! Messages made of a start line, header lines and a body. Lines end with CR LF,
and an empty line ends the headers. A message reads in at most one way. -/
namespace Miniweb.Lib.Message

open Miniweb.Lib.CString

/-- CR LF. -/
def crlf : Bytes := [13, 10]

/-- The text of a message. -/
def render (start : Bytes) (fields : List Bytes) (body : Bytes) : Bytes :=
  start ++ crlf ++ (fields.map (· ++ crlf)).flatten ++ crlf ++ body

/-- A line has no CR LF within it. -/
def IsLine (line : Bytes) : Prop := ¬ crlf <:+: line

instance (line : Bytes) : Decidable (IsLine line) := inferInstanceAs (Decidable (¬ _))

/-- The bytes are a message with this start line, these header lines and this
body. -/
structure Reads (bytes start : Bytes) (fields : List Bytes) (body : Bytes) : Prop where
  text : bytes = render start fields body
  start_isLine : IsLine start
  fields_isLine : ∀ field ∈ fields, IsLine field ∧ field ≠ []

variable {line line' rest rest' : Bytes} {c : UInt8}

theorem isLine_tail (isLine : IsLine (c :: line)) : IsLine line :=
  fun inside => isLine (inside.trans (List.suffix_cons c line).isInfix)

theorem isLine_of_not_mem (clean : 13 ∉ line) : IsLine line :=
  fun inside => clean (inside.subset (List.mem_cons_self))

/-- The first CR LF ends the line. -/
theorem line_unique (isLine : IsLine line) (isLine' : IsLine line')
    (same : line ++ crlf ++ rest = line' ++ crlf ++ rest') : line = line' ∧ rest = rest' := by
  -- A line that goes on where the other ends would contain the CR LF.
  have ends {line rest rest' : Bytes} (isLine : IsLine line)
      (same : crlf ++ rest = line ++ crlf ++ rest') : line = [] := by
    match line, same with
    | [], _ => rfl
    | [_], same => simp [crlf] at same
    | first :: second :: more, same =>
      simp only [crlf, List.cons_append, List.nil_append, List.cons.injEq] at same
      obtain ⟨rfl, rfl, _⟩ := same
      exact absurd ⟨[], more, rfl⟩ isLine
  induction line generalizing line' with
  | nil =>
    cases ends isLine' same
    exact ⟨rfl, List.append_cancel_left same⟩
  | cons first more ih =>
    cases line' with
    | nil => cases ends isLine same.symm
    | cons first' more' =>
      simp only [List.cons_append, List.cons.injEq] at same
      obtain ⟨rfl, same⟩ := same
      obtain ⟨rfl, rest_eq⟩ := ih (isLine_tail isLine) (isLine_tail isLine') same
      exact ⟨rfl, rest_eq⟩

/-- Header lines up to the empty one. -/
private theorem fields_unique {fields fields' : List Bytes} {body body' : Bytes}
    (isLine : ∀ field ∈ fields, IsLine field ∧ field ≠ [])
    (isLine' : ∀ field ∈ fields', IsLine field ∧ field ≠ [])
    (same : (fields.map (· ++ crlf)).flatten ++ crlf ++ body =
      (fields'.map (· ++ crlf)).flatten ++ crlf ++ body') : fields = fields' ∧ body = body' := by
  have empty : IsLine [] := isLine_of_not_mem List.not_mem_nil
  induction fields generalizing fields' with
  | nil =>
    cases fields' with
    | nil => exact ⟨rfl, List.append_cancel_left same⟩
    | cons field' more' =>
      obtain ⟨line', nonempty⟩ := isLine' field' List.mem_cons_self
      simp only [List.map_nil, List.flatten_nil, List.map_cons, List.flatten_cons,
        List.append_assoc] at same
      obtain ⟨first, _⟩ : [] = field' ∧
          body = (more'.map (· ++ crlf)).flatten ++ (crlf ++ body') :=
        line_unique empty line' (by simpa using same)
      exact absurd first.symm nonempty
  | cons field more ih =>
    obtain ⟨line, nonempty⟩ := isLine field List.mem_cons_self
    cases fields' with
    | nil =>
      simp only [List.map_nil, List.flatten_nil, List.map_cons, List.flatten_cons,
        List.append_assoc] at same
      obtain ⟨first, _⟩ : field = [] ∧
          (more.map (· ++ crlf)).flatten ++ (crlf ++ body) = body' :=
        line_unique line empty (by simpa using same)
      exact absurd first nonempty
    | cons field' more' =>
      simp only [List.map_cons, List.flatten_cons, List.append_assoc] at same
      obtain ⟨rfl, rest⟩ := line_unique line (isLine' field' List.mem_cons_self).1
        (by simpa only [List.append_assoc] using same)
      obtain ⟨rfl, rfl⟩ := ih (fun f member => isLine f (List.mem_cons_of_mem _ member))
        (fun f member => isLine' f (List.mem_cons_of_mem _ member)) (by simpa using rest)
      exact ⟨rfl, rfl⟩

theorem Reads.unique {bytes start start' body body' : Bytes} {fields fields' : List Bytes}
    (reads : Reads bytes start fields body) (reads' : Reads bytes start' fields' body') :
    start = start' ∧ fields = fields' ∧ body = body' := by
  have same := reads.text.symm.trans reads'.text
  simp only [render, List.append_assoc] at same
  obtain ⟨rfl, rest⟩ := line_unique reads.start_isLine reads'.start_isLine
    (by simpa only [List.append_assoc] using same)
  obtain ⟨rfl, rfl⟩ := fields_unique reads.fields_isLine reads'.fields_isLine (by simpa using rest)
  exact ⟨rfl, rfl, rfl⟩

end Miniweb.Lib.Message
