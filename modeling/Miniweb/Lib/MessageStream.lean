import Miniweb.Lib.Message

/-! Messages one behind another, each with the length of its body in one of its
fields: a reader that takes the messages off the front of a stream, and what it
finds in a stream that ends anywhere. The reader does not look at a body; the
fields that name its length are a parameter. -/
namespace Miniweb.Lib.Message

open Miniweb.Lib.CString

/-- The parts of a message. -/
structure Parts where
  start : Bytes
  fields : List Bytes
  body : Bytes
  deriving DecidableEq, Repr

/-- The text of a message with these parts. -/
def Parts.text (m : Parts) : Bytes := render m.start m.fields m.body

/-- The first line of a stream, and what is behind it. -/
def takeLine (s : Bytes) : Option (Bytes × Bytes) :=
  (strstr crlf s).map fun at' => (s.take at', s.drop (at' + 2))

/-- The lines up to the empty one. -/
def takeFields : Nat → Bytes → Option (List Bytes × Bytes)
  | 0, _ => none
  | fuel + 1, s =>
    match takeLine s with
    | none => none
    | some (line, rest) =>
      if line = [] then some ([], rest)
      else (takeFields fuel rest).map fun (fields, rest) => (line :: fields, rest)

variable {bodyLength : List Bytes → Option Nat}

/-- The first message of a stream. -/
def takeMessage (bodyLength : List Bytes → Option Nat) (s : Bytes) : Option (Parts × Bytes) :=
  match takeLine s with
  | none => none
  | some (start, rest) =>
    match takeFields (rest.length + 1) rest with
    | none => none
    | some (fields, rest) =>
      match bodyLength fields with
      | none => none
      | some length =>
        if length ≤ rest.length then some (⟨start, fields, rest.take length⟩, rest.drop length)
        else none

/-- At most so many messages of a stream, and what is left. -/
def takeMessages (bodyLength : List Bytes → Option Nat) : Nat → Bytes → List Parts × Bytes
  | 0, s => ([], s)
  | fuel + 1, s =>
    match takeMessage bodyLength s with
    | none => ([], s)
    | some (m, rest) =>
      let (more, left) := takeMessages bodyLength fuel rest
      (m :: more, left)

/-- All messages of a stream, and what is left. -/
def readStream (bodyLength : List Bytes → Option Nat) (s : Bytes) : List Parts × Bytes :=
  takeMessages bodyLength s.length s

/-- The message has lines for a start and for fields, which say how long its body
is. -/
structure Framed (bodyLength : List Bytes → Option Nat) (m : Parts) : Prop where
  start_isLine : IsLine m.start
  fields_isLine : ∀ field ∈ m.fields, IsLine field ∧ field ≠ []
  length : bodyLength m.fields = some m.body.length

variable {line rest rest' s tail : Bytes} {fields : List Bytes} {m m' : Parts} {ms : List Parts}

/-! ## One message -/

theorem takeLine_eq_some :
    takeLine s = some (line, rest) ↔ s = line ++ crlf ++ rest ∧ IsLine line := by
  have sound : ∀ line rest, takeLine s = some (line, rest) → s = line ++ crlf ++ rest ∧ IsLine line := by
    intro line rest taken
    obtain ⟨at', found, same⟩ := Option.map_eq_some_iff.mp taken
    obtain ⟨rfl, rfl⟩ := Prod.mk.inj same
    obtain ⟨⟨behind, here⟩, bound, first⟩ := strstr_eq_some.mp found
    have whole : s = s.take at' ++ crlf ++ s.drop (at' + 2) := by
      have later : s.drop (at' + 2) = behind := by
        rw [← List.drop_drop, ← here]
        rfl
      rw [later, List.append_assoc, here, List.take_append_drop]
    refine ⟨whole, ?_⟩
    rintro ⟨front, back, inside⟩
    have lengths := congrArg List.length inside
    simp only [List.length_append, List.length_take, min_eq_left bound] at lengths
    have two : crlf.length = 2 := rfl
    refine first front.length (by omega) ?_
    have early : s.drop front.length = crlf ++ (back ++ s.drop at') := by
      conv_lhs => rw [← List.take_append_drop at' s, ← inside]
      simp only [List.append_assoc, List.drop_left]
    rw [early]
    exact List.prefix_append _ _
  refine ⟨sound line rest, ?_⟩
  rintro ⟨rfl, isLine⟩
  cases taken : takeLine (line ++ crlf ++ rest) with
  | none =>
    have absent := strstr_eq_none.mp (Option.map_eq_none_iff.mp taken)
    exact absurd ⟨line, rest, rfl⟩ absent
  | some found =>
    obtain ⟨line', rest'⟩ := found
    obtain ⟨same, isLine'⟩ := sound line' rest' taken
    obtain ⟨rfl, rfl⟩ := line_unique isLine isLine' same
    rfl

/-- What the lines of fields look like in a stream. -/
def fieldsText (fields : List Bytes) : Bytes := (fields.map (· ++ crlf)).flatten ++ crlf

theorem takeFields_text (isLine : ∀ field ∈ fields, IsLine field ∧ field ≠ []) {fuel : Nat}
    (enough : fields.length < fuel) : takeFields fuel (fieldsText fields ++ rest) = some (fields, rest) := by
  induction fields generalizing fuel with
  | nil =>
    obtain ⟨fuel, rfl⟩ := Nat.exists_eq_succ_of_ne_zero (Nat.ne_of_gt enough)
    have taken : takeLine (fieldsText [] ++ rest) = some ([], rest) :=
      takeLine_eq_some.mpr ⟨rfl, isLine_of_not_mem List.not_mem_nil⟩
    rw [takeFields, taken]
    rfl
  | cons field more ih =>
    obtain ⟨fuel, rfl⟩ := Nat.exists_eq_succ_of_ne_zero (Nat.ne_of_gt (Nat.zero_lt_of_lt enough))
    obtain ⟨line, nonempty⟩ := isLine field List.mem_cons_self
    have taken : takeLine (fieldsText (field :: more) ++ rest) =
        some (field, fieldsText more ++ rest) := by
      refine takeLine_eq_some.mpr ⟨?_, line⟩
      simp only [fieldsText, List.map_cons, List.flatten_cons, List.append_assoc]
    rw [takeFields, taken]
    simp only
    rw [if_neg nonempty, ih (fun f member => isLine f (List.mem_cons_of_mem _ member))
      (Nat.lt_of_succ_lt_succ enough)]
    rfl

theorem takeFields_sound {fuel : Nat} (taken : takeFields fuel s = some (fields, rest)) :
    s = fieldsText fields ++ rest ∧ ∀ field ∈ fields, IsLine field ∧ field ≠ [] := by
  induction fuel generalizing s fields with
  | zero => cases taken
  | succ fuel ih =>
    rw [takeFields] at taken
    split at taken
    · cases taken
    · rename_i line behind first
      obtain ⟨rfl, isLine⟩ := takeLine_eq_some.mp first
      split at taken
      · rename_i empty
        cases taken
        subst empty
        exact ⟨rfl, fun _ member => by cases member⟩
      · rename_i nonempty
        obtain ⟨⟨more, left⟩, later, same⟩ := Option.map_eq_some_iff.mp taken
        obtain ⟨rfl, rfl⟩ := Prod.mk.inj same
        obtain ⟨rfl, isLines⟩ := ih later
        refine ⟨by simp only [fieldsText, List.map_cons, List.flatten_cons, List.append_assoc], ?_⟩
        rintro field (_ | ⟨_, member⟩)
        · exact ⟨isLine, nonempty⟩
        · exact isLines field member

theorem text_eq (m : Parts) : m.text = m.start ++ crlf ++ (fieldsText m.fields ++ m.body) := by
  simp only [Parts.text, render, fieldsText, List.append_assoc]

/-- Each line is at least as long as the fuel it costs. -/
theorem length_fields_le (fields : List Bytes) : fields.length ≤ (fieldsText fields).length := by
  induction fields with
  | nil => exact Nat.zero_le _
  | cons field more ih =>
    have two : crlf.length = 2 := rfl
    simp only [fieldsText, List.map_cons, List.flatten_cons, List.length_append, List.length_cons]
      at ih ⊢
    omega

/-- A message is read off whatever comes behind it. -/
theorem takeMessage_text (framed : Framed bodyLength m) :
    takeMessage bodyLength (m.text ++ rest) = some (m, rest) := by
  have first : takeLine (m.text ++ rest) = some (m.start, fieldsText m.fields ++ (m.body ++ rest)) := by
    refine takeLine_eq_some.mpr ⟨?_, framed.start_isLine⟩
    rw [text_eq]
    simp only [List.append_assoc]
  have enough : m.fields.length < (fieldsText m.fields ++ (m.body ++ rest)).length + 1 := by
    have := length_fields_le m.fields
    rw [List.length_append]
    omega
  unfold takeMessage
  rw [first]
  simp only
  rw [takeFields_text framed.fields_isLine enough]
  simp only [framed.length, List.length_append, Nat.le_add_right, if_true, List.take_left,
    List.drop_left]

/-- What the reader takes is a message, and was there. -/
theorem takeMessage_sound (taken : takeMessage bodyLength s = some (m, rest)) :
    s = m.text ++ rest ∧ Framed bodyLength m := by
  unfold takeMessage at taken
  split at taken
  · cases taken
  · rename_i start behind first
    obtain ⟨rfl, isLine⟩ := takeLine_eq_some.mp first
    split at taken
    · cases taken
    · rename_i fields left later
      obtain ⟨rfl, isLines⟩ := takeFields_sound later
      split at taken
      · cases taken
      · rename_i length named
        split at taken <;> cases taken
        rename_i within
        refine ⟨?_, isLine, isLines, ?_⟩
        · rw [text_eq]
          simp only [List.append_assoc, List.take_append_drop]
        · simp only [named, List.length_take, min_eq_left within]

/-- The reader takes nothing off a message that is cut short. -/
theorem takeMessage_cut (framed : Framed bodyLength m) (front : tail <+: m.text)
    (short : tail ≠ m.text) : takeMessage bodyLength tail = none := by
  cases taken : takeMessage bodyLength tail with
  | none => rfl
  | some found =>
    obtain ⟨m', left⟩ := found
    obtain ⟨rfl, framed'⟩ := takeMessage_sound taken
    obtain ⟨missing, whole⟩ := front
    -- the message has one reading, and its fields say that nothing is missing
    have reads : Reads m.text m.start m.fields m.body :=
      ⟨rfl, framed.start_isLine, framed.fields_isLine⟩
    have reads' : Reads m.text m'.start m'.fields (m'.body ++ (left ++ missing)) := by
      refine ⟨?_, framed'.start_isLine, framed'.fields_isLine⟩
      rw [← whole]
      simp only [Parts.text, render, List.append_assoc]
    obtain ⟨_, fields, body⟩ := reads.unique reads'
    have lengths := framed'.length.symm.trans (fields ▸ framed.length)
    rw [body, Option.some.injEq, List.length_append] at lengths
    have nothing : left ++ missing = [] := List.length_eq_zero_iff.mp (by omega)
    obtain ⟨rfl, rfl⟩ := List.append_eq_nil_iff.mp nothing
    rw [List.append_nil] at whole
    exact absurd whole short

/-! ## A stream -/

/-- The text of messages one behind another. -/
def streamText (ms : List Parts) : Bytes := (ms.map Parts.text).flatten

theorem length_stream_le (ms : List Parts) : ms.length ≤ (streamText ms).length := by
  induction ms with
  | nil => exact Nat.zero_le _
  | cons m more ih =>
    have two : crlf.length = 2 := rfl
    have first := congrArg List.length (text_eq m)
    simp only [streamText, List.map_cons, List.flatten_cons, List.length_append, List.length_cons]
      at first ih ⊢
    omega

theorem takeMessages_stream (framed : ∀ m ∈ ms, Framed bodyLength m)
    (ended : takeMessage bodyLength tail = none) {fuel : Nat} (enough : ms.length ≤ fuel) :
    takeMessages bodyLength fuel (streamText ms ++ tail) = (ms, tail) := by
  induction ms generalizing fuel with
  | nil =>
    cases fuel with
    | zero => rfl
    | succ fuel =>
      rw [takeMessages]
      simp only [streamText, List.map_nil, List.flatten_nil, List.nil_append, ended]
  | cons m more ih =>
    obtain ⟨fuel, rfl⟩ := Nat.exists_eq_succ_of_ne_zero (Nat.ne_of_gt (Nat.zero_lt_of_lt enough))
    have split' : streamText (m :: more) ++ tail = m.text ++ (streamText more ++ tail) := by
      simp only [streamText, List.map_cons, List.flatten_cons, List.append_assoc]
    rw [takeMessages, split', takeMessage_text (framed m List.mem_cons_self)]
    simp only
    rw [ih (fun m member => framed m (List.mem_cons_of_mem _ member)) (Nat.le_of_succ_le_succ enough)]

/-- The reader finds the messages of a stream, and leaves the beginning of one
that the stream ends in. -/
theorem readStream_messages (framed : ∀ m ∈ ms, Framed bodyLength m)
    (ended : takeMessage bodyLength tail = none) :
    readStream bodyLength (streamText ms ++ tail) = (ms, tail) := by
  refine takeMessages_stream framed ended ?_
  have := length_stream_le ms
  rw [List.length_append]
  omega

end Miniweb.Lib.Message
