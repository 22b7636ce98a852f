import Miniweb.Modules.ManRender

/-! What is left of overstruck text. The loop writes into the buffer it reads, but never
beyond the byte it stands at, so it computes a function of the text; that function looks at
one backspace in a place, and of a character struck over more than once the odd copies and
their backspaces stay. -/
namespace Miniweb.OverstrikeProofs

open Miniweb.Lib.CString Miniweb.Modules

variable {len out in' rounds : Nat} {text rest : Bytes} {c : UInt8}

/-! ## The text that is left -/

/-- What the loop makes of a text. -/
def stripped : Bytes → Bytes
  | [] => []
  | [c] => if c = 0 then [] else [c]
  | [c, d] => if c = 0 then [] else c :: stripped [d]
  | c :: d :: e :: rest =>
    if c = 0 then []
    else if d = 8 then e :: stripped rest
    else c :: stripped (d :: e :: rest)

/-- A NUL ends the text. -/
theorem stripped_zero (rest : Bytes) : stripped (0 :: rest) = [] := by
  match rest with
  | [] => rfl
  | [d] => rfl
  | d :: e :: rest => rfl

theorem stripped_pair (visible : c ≠ 0) (e : UInt8) (rest : Bytes) :
    stripped (c :: 8 :: e :: rest) = e :: stripped rest := by
  simp [stripped, visible]

/-- A byte without a backspace and another byte behind it stays. -/
theorem stripped_cons (visible : c ≠ 0) (plain : rest.head? = some 8 → rest.length < 2) :
    stripped (c :: rest) = c :: stripped rest := by
  match rest with
  | [] => simp [stripped, visible]
  | [d] => simp [stripped, visible]
  | d :: e :: rest =>
    have other : d ≠ 8 := by
      rintro rfl
      have := plain rfl
      simp at this
    simp [stripped, visible, other]

/-- A string without backspaces stays as it is. -/
theorem stripped_of_plain (visible : 0 ∉ text) (plain : 8 ∉ text) : stripped text = text := by
  induction text with
  | nil => rfl
  | cons c rest ih =>
    obtain ⟨here, later⟩ := List.ne_and_not_mem_of_not_mem_cons visible
    have noBackspace := List.not_mem_of_not_mem_cons plain
    rw [stripped_cons here.symm, ih later noBackspace]
    intro backspace
    exact absurd (List.mem_of_mem_head? backspace) noBackspace

/-! ## The loop in its buffer -/

/-- A byte written behind the ones kept is kept as well. -/
theorem take_set_succ (inside : out < text.length) (c : UInt8) :
    (text.set out c).take (out + 1) = text.take out ++ [c] := by
  rw [List.take_add_one, List.take_set_of_le (Nat.le_refl _), List.getElem?_set_self inside]
  rfl

/-- What stands behind the byte written is unchanged. -/
theorem drop_set_lt (before : out < in') (c : UInt8) : (text.set out c).drop in' = text.drop in' :=
  List.drop_set_of_lt before

/-- The bytes the loop has not read yet. -/
def unread (len : Nat) (text : Bytes) (in' : Nat) : Bytes := (text.drop in').take (len - in')

theorem unread_set (before : out < in') (c : UInt8) :
    unread len (text.set out c) in' = unread len text in' := by
  rw [unread, unread, drop_set_lt before]

theorem unread_cons (more : in' < len) (room : len < text.length) :
    unread len text in' = text.getD in' 0 :: unread len text (in' + 1) := by
  have inside : in' < text.length := by omega
  rw [unread, unread, List.drop_eq_getElem_cons inside,
    show len - in' = (len - (in' + 1)) + 1 by omega, List.take_succ_cons,
    List.getD_eq_getElem _ _ inside]

theorem unread_nil (behind : len ≤ in') : unread len text in' = [] := by
  rw [unread, Nat.sub_eq_zero_of_le behind, List.take_zero]

theorem length_unread (room : len < text.length) : (unread len text in').length = len - in' := by
  rw [unread, List.length_take, List.length_drop]
  omega

/-- In the buffer the loop leaves what was kept before and the stripped rest. -/
theorem manStripFrom_spec (enough : len - in' ≤ rounds) (behind : out ≤ in') (within : in' ≤ len)
    (room : len < text.length) :
    (manStripFrom len rounds text in' out).1.length = text.length ∧
    (manStripFrom len rounds text in' out).2 ≤ len ∧
    (manStripFrom len rounds text in' out).1.take (manStripFrom len rounds text in' out).2 =
      text.take out ++ stripped (unread len text in') := by
  induction rounds generalizing text in' out with
  | zero =>
    have done : unread len text in' = [] := unread_nil (by omega)
    exact ⟨rfl, by simp only [manStripFrom]; omega, by simp [manStripFrom, done, stripped]⟩
  | succ rounds ih =>
    -- A round that keeps the byte `c` and goes on at `next`.
    have round {c : UInt8} {next : Nat} (forward : in' < next) (inside : next ≤ len)
        (keeps : stripped (unread len text in') = c :: stripped (unread len text next)) :
        (manStripFrom len rounds (text.set out c) next (out + 1)).1.length = text.length ∧
        (manStripFrom len rounds (text.set out c) next (out + 1)).2 ≤ len ∧
        (manStripFrom len rounds (text.set out c) next (out + 1)).1.take
            (manStripFrom len rounds (text.set out c) next (out + 1)).2 =
          text.take out ++ stripped (unread len text in') := by
      obtain ⟨length, bound, kept⟩ := ih (by omega : len - next ≤ rounds)
        (by omega : out + 1 ≤ next) inside (by simpa using room : len < (text.set out c).length)
      refine ⟨length.trans (List.length_set ..), bound, ?_⟩
      rw [kept, take_set_succ (by omega), unread_set (by omega), keeps, List.append_assoc]
      rfl
    simp only [manStripFrom]
    split
    · rename_i more
      have here := unread_cons more.1 room
      split
      · rename_i pair
        refine round (by omega) (by omega) ?_
        rw [here, unread_cons (by omega) room, pair.2, unread_cons pair.1 room]
        exact stripped_pair more.2 _ _
      · rename_i single
        refine round (by omega) (by omega) ?_
        rw [here]
        refine stripped_cons more.2 fun backspace => ?_
        -- A backspace that is not taken is the last byte.
        by_contra long
        rw [length_unread room] at long
        have next := unread_cons (by omega : in' + 1 < len) room
        rw [next, List.head?_cons, Option.some.injEq] at backspace
        exact single ⟨by omega, backspace⟩
    · rename_i stops
      refine ⟨rfl, by dsimp only; omega, ?_⟩
      by_cases more : in' < len
      · have ended : text.getD in' 0 = 0 := by
          by_contra other
          exact stops ⟨more, other⟩
        rw [unread_cons more room, ended, stripped_zero, List.append_nil]
      · rw [unread_nil (by omega), stripped, List.append_nil]

/-- The string in the buffer afterwards, of the length that is left. -/
theorem manStrip_spec (room : len < text.length) :
    (manStripOverstrikeAscii text len).1.take (manStripOverstrikeAscii text len).2 =
      stripped (text.take len) ∧
    (manStripOverstrikeAscii text len).2 = (stripped (text.take len)).length ∧
    (manStripOverstrikeAscii text len).1.length = text.length := by
  have enough : len - 0 ≤ len := Nat.sub_le len 0
  obtain ⟨length, bound, kept⟩ := manStripFrom_spec enough (Nat.le_refl 0) (Nat.zero_le _) room
  have whole : unread len text 0 = text.take len := rfl
  rw [whole, List.take_zero, List.nil_append] at kept
  refine ⟨?_, ?_, ?_⟩
  · simp only [manStripOverstrikeAscii]
    rw [List.take_set_of_le (Nat.le_refl _), kept]
  · rw [← kept, List.length_take, length]
    simp only [manStripOverstrikeAscii]
    omega
  · simp only [manStripOverstrikeAscii]
    rw [List.length_set, length]

/-! ## Cells -/

/-- A character and the ones struck over it, each behind a backspace. -/
structure Cell where
  first : UInt8
  struck : List UInt8
  plain : ∀ c ∈ first :: struck, c ≠ 8 ∧ c ≠ 0

/-- The bytes of a cell. -/
def Cell.bytes (cell : Cell) : Bytes := cell.first :: cell.struck.flatMap fun c => [8, c]

/-- The character to be seen. -/
def Cell.last (cell : Cell) : UInt8 := (cell.first :: cell.struck).getLast (List.cons_ne_nil _ _)

/-- What is left of a cell: every other character with the backspaces between. -/
def leftOf : UInt8 → List UInt8 → Bytes
  | first, [] => [first]
  | _, [c] => [c]
  | _, c :: d :: struck => c :: 8 :: leftOf d struck

variable {first : UInt8} {struck : List UInt8} {cells : List Cell}

/-- A cell is stripped by itself. -/
theorem stripped_cell (plain : ∀ c ∈ first :: struck, c ≠ 8 ∧ c ≠ 0) (next : rest.head? ≠ some 8) :
    stripped ((first :: struck.flatMap fun c => [8, c]) ++ rest) =
      leftOf first struck ++ stripped rest := by
  induction first, struck using leftOf.induct with
  | case1 first =>
    have visible := (plain first List.mem_cons_self).2
    exact stripped_cons visible fun backspace => absurd backspace next
  | case2 first c =>
    have visible := (plain first List.mem_cons_self).2
    exact stripped_pair visible c rest
  | case3 first c d struck ih =>
    have visible := (plain first List.mem_cons_self).2
    have other : d ≠ 8 := (plain d (by simp)).1
    have later := ih fun c member =>
      plain c (List.mem_cons_of_mem _ (List.mem_cons_of_mem _ member))
    -- Behind the pair that is taken the next backspace has no character in front of it.
    calc stripped ((first :: (c :: d :: struck).flatMap fun c => [8, c]) ++ rest)
        = c :: stripped (8 :: d :: (struck.flatMap (fun c => [8, c]) ++ rest)) :=
          stripped_pair visible c _
      _ = c :: 8 :: stripped (d :: (struck.flatMap (fun c => [8, c]) ++ rest)) := by
          rw [stripped_cons (by decide)]
          simp [other]
      _ = leftOf first (c :: d :: struck) ++ stripped rest := by
          rw [← List.cons_append, later]
          rfl

/-- So is a text of cells. -/
theorem stripped_cells (cells : List Cell) :
    stripped (cells.flatMap Cell.bytes) = cells.flatMap fun cell => leftOf cell.first cell.struck := by
  induction cells with
  | nil => rfl
  | cons cell cells ih =>
    have next : (cells.flatMap Cell.bytes).head? ≠ some 8 := by
      cases cells with
      | nil => simp
      | cons cell' cells =>
        simp only [List.flatMap_cons, Cell.bytes, List.cons_append, List.head?_cons, ne_eq,
          Option.some.injEq]
        exact (cell'.plain _ List.mem_cons_self).1
    rw [List.flatMap_cons, List.flatMap_cons, ← ih]
    exact stripped_cell cell.plain next

/-- A backspace is left of a cell that was struck over twice. -/
theorem backspace_mem_leftOf (twice : 2 ≤ struck.length) : 8 ∈ leftOf first struck := by
  match struck with
  | c :: d :: struck => simp [leftOf]

theorem leftOf_of_once (cell : Cell) (once : cell.struck.length ≤ 1) :
    leftOf cell.first cell.struck = [cell.last] := by
  obtain ⟨first, struck, plain⟩ := cell
  match struck with
  | [] => rfl
  | [c] => rfl

theorem last_plain (cell : Cell) : cell.last ≠ 8 ∧ cell.last ≠ 0 :=
  cell.plain _ (List.getLast_mem _)

/-- The text `man_strip_overstrike_ascii` leaves in a buffer that holds a text and its
terminator. -/
def leftInBuffer (text : Bytes) : Bytes :=
  let (text, len) := manStripOverstrikeAscii (text ++ [0]) text.length
  text.take len

theorem leftInBuffer_eq (text : Bytes) : leftInBuffer text = stripped text := by
  have room : text.length < (text ++ [0]).length := by
    rw [List.length_append]
    exact Nat.lt_succ_self _
  have kept := (manStrip_spec room).1
  rwa [List.take_left] at kept

/-- The characters to be seen, and a text in which nothing is struck over. -/
structure ShowsLast (cells : List Cell) (text : Bytes) : Prop where
  shown : text = cells.map Cell.last
  plain : 8 ∉ text
  again : leftInBuffer text = text

/-- Exactly the text in which no character is struck over twice is stripped to its last
characters. -/
theorem strips_to_last_iff (cells : List Cell) :
    ShowsLast cells (leftInBuffer (cells.flatMap Cell.bytes)) ↔
      ∀ cell ∈ cells, cell.struck.length ≤ 1 := by
  rw [leftInBuffer_eq, stripped_cells]
  constructor
  · intro shows cell member
    by_contra often
    exact shows.plain (List.mem_flatMap.mpr
      ⟨cell, member, backspace_mem_leftOf (by omega)⟩)
  · intro once
    have same : (cells.flatMap fun cell => leftOf cell.first cell.struck) =
        cells.map Cell.last := by
      rw [List.map_eq_flatMap]
      exact List.flatMap_congr fun cell member => leftOf_of_once cell (once cell member)
    have plain : 8 ∉ cells.map Cell.last := by
      intro member
      obtain ⟨cell, _, here⟩ := List.mem_map.mp member
      exact (last_plain cell).1 here
    have visible : 0 ∉ cells.map Cell.last := by
      intro member
      obtain ⟨cell, _, here⟩ := List.mem_map.mp member
      exact (last_plain cell).2 here
    rw [same]
    refine ⟨rfl, plain, ?_⟩
    rw [leftInBuffer_eq, stripped_of_plain visible plain]

/-- An underlined bold character: `_` and twice `N`. -/
def boldUnderlined : Cell where
  first := 95
  struck := [78, 78]
  plain := by simp

/-- Of it the loop leaves a backspace and both copies. -/
theorem boldUnderlined_left :
    ¬ ∀ cells : List Cell, ShowsLast cells (leftInBuffer (cells.flatMap Cell.bytes)) := by
  intro always
  exact (always [boldUnderlined]).plain (by decide)

end Miniweb.OverstrikeProofs
