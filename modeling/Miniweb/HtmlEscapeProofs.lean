import Mathlib
import Miniweb.Lib.Entities
import Miniweb.Router.HtmlEscape
import Miniweb.Router.StaticHandler

/-! What `html_escape` returns. The two tables of the source agree, so the second loop fills
the block up to its last byte; and the text is one of `Miniweb.Lib.Entities`, which is read
back from it. -/
namespace Miniweb.HtmlEscapeProofs

open Miniweb.Lib Miniweb.Lib.CString Miniweb.Router
open Miniweb.Lib.Output (store)

variable {s : Bytes} {c : UInt8}

/-! ## The loops -/

theorem htmlEscapePiece_eq (c : UInt8) :
    htmlEscapePiece c = (htmlEscapeByte c, (htmlEscapeByte c).length) := by
  unfold htmlEscapePiece htmlEscapeByte
  repeat' split
  all_goals rfl

theorem htmlEscapeCount_eq (len : Nat) (c : UInt8) :
    htmlEscapeCount len c = len + (htmlEscapeByte c).length := by
  unfold htmlEscapeCount htmlEscapeByte
  by_cases amp : c = 38
  · rw [if_pos amp, if_pos amp]
    rfl
  · rw [if_neg amp, if_neg amp]
    by_cases lt : c = 60
    · rw [if_pos (.inl lt), if_pos lt]
      rfl
    · rw [if_neg lt]
      by_cases gt : c = 62
      · rw [if_pos (.inr gt), if_pos gt]
        rfl
      · rw [if_neg (not_or.mpr ⟨lt, gt⟩), if_neg gt]
        split <;> rfl

theorem foldl_htmlEscapeCount (len : Nat) (s : Bytes) :
    s.foldl htmlEscapeCount len = len + (htmlEscape s).length := by
  induction s generalizing len with
  | nil => rfl
  | cons c rest ih =>
    rw [List.foldl_cons, ih, htmlEscapeCount_eq, htmlEscape, htmlEscape, List.flatMap_cons,
      List.length_append, Nat.add_assoc]

/-- The first loop counts the text. -/
theorem htmlEscapeLength_eq (s : Bytes) : htmlEscapeLength s = (htmlEscape s).length := by
  rw [htmlEscapeLength, foldl_htmlEscapeCount, Nat.zero_add]

/-- A copy behind what is written, where it fits. -/
theorem copyInto_append (out : Bytes) {tail text : Bytes} (fits : text.length ≤ tail.length) :
    copyInto (out ++ tail) out.length text text.length =
      some (out ++ text ++ tail.drop text.length) := by
  have inside : out.length + text.length ≤ (out ++ tail).length := by
    rw [List.length_append]
    omega
  rw [copyInto, if_pos inside, store, List.take_length, List.take_left, List.drop_append]
  simp

/-- The second loop writes the text, and stays inside if there is room for it. -/
theorem htmlEscapeWrite_append (out : Bytes) {s tail : Bytes}
    (room : (htmlEscape s).length ≤ tail.length) :
    htmlEscapeWrite (out ++ tail) out.length s =
      some (out ++ htmlEscape s ++ tail.drop (htmlEscape s).length,
        out.length + (htmlEscape s).length) := by
  induction s generalizing out tail with
  | nil => simp [htmlEscapeWrite, htmlEscape]
  | cons c rest ih =>
    have whole : htmlEscape (c :: rest) = htmlEscapeByte c ++ htmlEscape rest := by
      simp [htmlEscape]
    rw [whole, List.length_append] at room
    have here : (htmlEscapeByte c).length ≤ tail.length := by omega
    have left : (htmlEscape rest).length ≤ (tail.drop (htmlEscapeByte c).length).length := by
      rw [List.length_drop]
      omega
    rw [htmlEscapeWrite, htmlEscapePiece_eq]
    dsimp only
    rw [copyInto_append out here]
    dsimp only
    rw [← List.length_append, ih _ left, whole]
    simp [Nat.add_assoc]

/-- The block it returns holds the text and the terminator, and nothing else. -/
theorem htmlEscapeBlock_some (malloc : (size : Nat) → Option (List.Vector UInt8 size)) (s : Bytes) :
    htmlEscapeBlock malloc (some s) =
      some ((malloc (htmlEscapeLength s + 1)).map fun _ => htmlEscape s ++ [0]) := by
  rw [htmlEscapeBlock]
  cases malloc (htmlEscapeLength s + 1) with
  | none => rfl
  | some block =>
    have size : block.toList.length = (htmlEscape s).length + 1 := by
      rw [List.Vector.toList_length, htmlEscapeLength_eq]
    have room : (htmlEscape s).length ≤ block.toList.length := by omega
    have written := htmlEscapeWrite_append [] room
    rw [List.nil_append, List.nil_append, List.length_nil, Nat.zero_add] at written
    dsimp only
    rw [written]
    dsimp only
    have last : [(0 : UInt8)].length ≤ (block.toList.drop (htmlEscape s).length).length := by
      simp [size]
    have terminated := copyInto_append (htmlEscape s) last
    rw [List.length_singleton] at terminated
    rw [terminated, List.drop_drop, List.drop_eq_nil_of_le size.le, List.append_nil]
    rfl

/-! ## The text -/

/-- The entities of the source. -/
def htmlEntities : Entities.Table UInt8 where
  marker := 38
  entries := [(38, lit "amp;"), (60, lit "lt;"), (62, lit "gt;"), (34, lit "quot;")]
  marker_listed := by decide
  clean := by decide +kernel
  separate := by decide

theorem htmlEscapeByte_eq (c : UInt8) : htmlEscapeByte c = htmlEntities.entity c := by
  unfold htmlEscapeByte Entities.Table.entity htmlEntities
  by_cases amp : c = 38
  · subst amp
    rfl
  by_cases lt : c = 60
  · subst lt
    rfl
  by_cases gt : c = 62
  · subst gt
    rfl
  by_cases quot : c = 34
  · subst quot
    rfl
  simp [amp, lt, gt, quot, Ne.symm amp, Ne.symm lt, Ne.symm gt, Ne.symm quot]

theorem htmlEscape_eq (s : Bytes) : htmlEscape s = htmlEntities.encode s := by
  rw [htmlEscape, Entities.Table.encode, funext htmlEscapeByte_eq]

/-- The text with its entities replaced by their characters. -/
def htmlUnescape (text : Bytes) : Bytes := htmlEntities.decode text

/-- For every string: the second loop stays inside any block of the size that is asked for
and writes as many bytes as the first has counted; the string in the block that is returned
holds no `<`, `>` or `"`, every `&` in it starts an entity, and it becomes the given string
again once the entities are replaced. -/
theorem escaped_text_reads_back (malloc : (size : Nat) → Option (List.Vector UInt8 size))
    (s : Bytes) :
    ∃ text : Bytes,
      (∀ block : Bytes, block.length = htmlEscapeLength s + 1 →
        ∃ last, htmlEscapeWrite block 0 s = some (text ++ [last], htmlEscapeLength s)) ∧
      htmlEscapeBlock malloc (some s) =
        some ((malloc (htmlEscapeLength s + 1)).map fun _ => text ++ [0]) ∧
      text.length = htmlEscapeLength s ∧
      60 ∉ text ∧ 62 ∉ text ∧ 34 ∉ text ∧
      (∀ before after, text = before ++ 38 :: after →
        ∃ name ∈ [lit "amp;", lit "lt;", lit "gt;", lit "quot;"], name <+: after) ∧
      htmlUnescape text = s := by
  have listed (c : UInt8) (name : Bytes) (other : c ≠ 38)
      (member : (c, name) ∈ htmlEntities.entries) : c ∉ htmlEscape s := by
    rw [htmlEscape_eq]
    exact Entities.Table.not_mem_encode member other s
  refine ⟨htmlEscape s, ?_, htmlEscapeBlock_some malloc s, (htmlEscapeLength_eq s).symm,
    listed 60 (lit "lt;") (by decide) (by decide), listed 62 (lit "gt;") (by decide) (by decide),
    listed 34 (lit "quot;") (by decide) (by decide), ?_, ?_⟩
  · intro block size
    rw [htmlEscapeLength_eq] at size ⊢
    have room : (htmlEscape s).length ≤ block.length := by omega
    have written := htmlEscapeWrite_append [] room
    obtain ⟨last, only⟩ : ∃ last, block.drop (htmlEscape s).length = [last] := by
      apply List.length_eq_one_iff.mp
      rw [List.length_drop]
      omega
    rw [only] at written
    exact ⟨last, by simpa using written⟩
  · intro before after split
    rw [htmlEscape_eq] at split
    obtain ⟨e, member, starts⟩ := Entities.Table.encode_marker split
    exact ⟨e.2, List.mem_map_of_mem (f := Prod.snd) member, starts⟩
  · rw [htmlUnescape, htmlEscape_eq, Entities.Table.decode_encode]

end Miniweb.HtmlEscapeProofs
