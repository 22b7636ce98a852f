import Miniweb.Lib.CString

/-! Messages of lines that end with CRLF: a first line, header lines `name: value`, an
empty line, and a body of any bytes. -/
namespace Miniweb.Lib.HeaderSection

open CString

/-- The first line of a text and the later ones: the pieces between CRLFs. -/
def splitLines : Bytes → Bytes × List Bytes
  | [] => ([], [])
  | [c] => ([c], [])
  | c :: d :: rest =>
    if c = 13 ∧ d = 10 then ([], (splitLines rest).1 :: (splitLines rest).2)
    else (c :: (splitLines (d :: rest)).1, (splitLines (d :: rest)).2)

def firstLine (s : Bytes) : Bytes := (splitLines s).1

def laterLines (s : Bytes) : List Bytes := (splitLines s).2

/-- The header lines of a message: those behind its first line and in front of its first
empty line. -/
def headerLines (message : Bytes) : List Bytes :=
  match strstr (lit "\r\n\r\n") message with
  | none => []
  | some at' => laterLines (message.take at')

/-- What a header line says for a name: the bytes behind its colon, when those in front of
it are the name in any case. -/
def valueNamed (name line : Bytes) : Option Bytes :=
  match strchr 58 line with
  | none => none
  | some at' => if strcaseeq (line.take at') name then some (line.drop (at' + 1)) else none

variable {s rest line text name : Bytes} {c : UInt8} {at' : Nat}

/-! ## Lines -/

theorem firstLine_crlf (rest : Bytes) : firstLine (13 :: 10 :: rest) = [] := by
  rw [firstLine, splitLines, if_pos ⟨rfl, rfl⟩]

theorem laterLines_crlf (rest : Bytes) :
    laterLines (13 :: 10 :: rest) = firstLine rest :: laterLines rest := by
  rw [laterLines, splitLines, if_pos ⟨rfl, rfl⟩]
  rfl

/-- A byte that does not start a CRLF belongs to the first line. -/
theorem splitLines_cons (inside : ¬ [13, 10] <+: c :: rest) :
    splitLines (c :: rest) = (c :: firstLine rest, laterLines rest) := by
  cases rest with
  | nil => rfl
  | cons d rest =>
    rw [splitLines, if_neg]
    · rfl
    · rintro ⟨rfl, rfl⟩
      exact inside ⟨rest, rfl⟩

theorem firstLine_cons (inside : ¬ [13, 10] <+: c :: rest) :
    firstLine (c :: rest) = c :: firstLine rest := by
  rw [firstLine, splitLines_cons inside]

theorem laterLines_cons (inside : ¬ [13, 10] <+: c :: rest) :
    laterLines (c :: rest) = laterLines rest := by
  rw [laterLines, splitLines_cons inside]

/-- Bytes are taken off a text one by one, or a CRLF at once. -/
theorem lines_induction {motive : Bytes → Prop} (nil : motive [])
    (crlf : ∀ rest, motive rest → motive (13 :: 10 :: rest))
    (cons : ∀ c rest, ¬ [13, 10] <+: c :: rest → motive rest → motive (c :: rest)) (s : Bytes) :
    motive s := by
  induction s using splitLines.induct with
  | case1 => exact nil
  | case2 c => exact cons c [] (by rintro ⟨_, same⟩; cases same) nil
  | case3 c d rest here ih =>
    obtain ⟨rfl, rfl⟩ := here
    exact crlf rest ih
  | case4 c d rest inside ih =>
    refine cons c (d :: rest) ?_ ih
    rintro ⟨_, same⟩
    cases same
    exact inside ⟨rfl, rfl⟩

/-- The first line is the text up to its first CRLF. -/
theorem firstLine_split (s : Bytes) :
    s = firstLine s ∧ laterLines s = [] ∨
      ∃ rest, s = firstLine s ++ 13 :: 10 :: rest ∧
        laterLines s = firstLine rest :: laterLines rest := by
  induction s using lines_induction with
  | nil => exact .inl ⟨rfl, rfl⟩
  | crlf rest _ => exact .inr ⟨rest, by rw [firstLine_crlf]; rfl, laterLines_crlf rest⟩
  | cons c rest inside ih =>
    rw [firstLine_cons inside, laterLines_cons inside]
    rcases ih with ⟨whole, none⟩ | ⟨back, split', later⟩
    · exact .inl ⟨congrArg _ whole, none⟩
    · exact .inr ⟨back, congrArg _ split', later⟩

theorem firstLine_prefix (s : Bytes) : firstLine s <+: s := by
  rcases firstLine_split s with ⟨whole, _⟩ | ⟨rest, split', _⟩
  · rw [← whole]
  · exact ⟨13 :: 10 :: rest, split'.symm⟩

/-- Lines can be told apart at any CRLF. -/
theorem laterLines_append_crlf (s rest : Bytes) :
    laterLines (s ++ 13 :: 10 :: rest) = laterLines s ++ firstLine rest :: laterLines rest ∧
      firstLine (s ++ 13 :: 10 :: rest) = firstLine s := by
  induction s using lines_induction with
  | nil => exact ⟨laterLines_crlf rest, firstLine_crlf rest⟩
  | crlf s ih =>
    rw [List.cons_append, List.cons_append, laterLines_crlf, laterLines_crlf, ih.1, ih.2,
      firstLine_crlf, firstLine_crlf]
    exact ⟨rfl, rfl⟩
  | cons c s inside ih =>
    have inside' : ¬ [13, 10] <+: c :: (s ++ 13 :: 10 :: rest) := by
      intro starts
      cases s with
      | nil =>
        obtain ⟨_, same⟩ := starts
        simp at same
      | cons d s =>
        obtain ⟨_, same⟩ := starts
        simp only [List.cons_append, List.nil_append, List.cons.injEq] at same
        obtain ⟨rfl, rfl, _⟩ := same
        exact inside ⟨s, rfl⟩
    rw [List.cons_append, laterLines_cons inside, laterLines_cons inside', firstLine_cons inside,
      firstLine_cons inside', ih.1, ih.2]
    exact ⟨rfl, rfl⟩

/-- What is left of the first line is the first line of what is left. -/
theorem lines_drop {k : Nat} (within : k ≤ (firstLine s).length) :
    firstLine (s.drop k) = (firstLine s).drop k ∧ laterLines (s.drop k) = laterLines s := by
  induction k generalizing s with
  | zero => exact ⟨rfl, rfl⟩
  | succ k ih =>
    induction s using lines_induction with
    | nil => exact absurd within (Nat.not_succ_le_zero k)
    | crlf rest _ =>
      rw [firstLine_crlf] at within
      exact absurd within (Nat.not_succ_le_zero k)
    | cons c rest inside _ =>
      rw [firstLine_cons inside, List.length_cons, Nat.succ_le_succ_iff] at within
      rw [firstLine_cons inside, laterLines_cons inside]
      exact ih within

/-- The end of the first line is where the search for CRLF stops. -/
theorem strstr_crlf (s : Bytes) :
    strstr (lit "\r\n") s = if laterLines s = [] then none else some (firstLine s).length := by
  induction s using lines_induction with
  | nil => rfl
  | crlf rest _ =>
    rw [firstLine_crlf, laterLines_crlf]
    rfl
  | cons c rest inside ih =>
    have notHere : ¬ (lit "\r\n").isPrefixOf (c :: rest) = true := by
      rwa [List.isPrefixOf_iff_prefix]
    rw [strstr, if_neg notHere, ih, firstLine_cons inside, laterLines_cons inside]
    split
    · rfl
    · rfl

/-- What is skipped at the start of a text is skipped in its first line. -/
theorem lines_dropWhile {skipped : UInt8 → Bool} (cr : skipped 13 = false) (s : Bytes) :
    firstLine (s.dropWhile skipped) = (firstLine s).dropWhile skipped ∧
      laterLines (s.dropWhile skipped) = laterLines s := by
  induction s using lines_induction with
  | nil => exact ⟨rfl, rfl⟩
  | crlf rest _ =>
    rw [List.dropWhile_cons, cr, firstLine_crlf]
    exact ⟨firstLine_crlf rest, rfl⟩
  | cons c rest inside ih =>
    rw [List.dropWhile_cons, firstLine_cons inside, laterLines_cons inside, List.dropWhile_cons]
    split
    · exact ih
    · exact ⟨firstLine_cons inside, laterLines_cons inside⟩

/-! ## Searching for a line -/

theorem tolower_cr (c : UInt8) : tolower c = 13 ↔ c = 13 :=
  tolower_eq_iff (.inl (by decide)) (.inl (by decide))

theorem tolower_lf (c : UInt8) : tolower c = 10 ↔ c = 10 :=
  tolower_eq_iff (.inl (by decide)) (.inl (by decide))

/-- A text without CR stands at the start of a string when it does in the first line. -/
theorem strncaseeq_firstLine (clean : (13 : UInt8) ∉ text) (s : Bytes) :
    strncaseeq s text = strncaseeq (firstLine s) text := by
  rcases firstLine_split s with ⟨whole, _⟩ | ⟨rest, split', _⟩
  · rw [← whole]
  · conv_lhs => rw [split']
    exact strncaseeq_append _ tolower_cr clean

theorem strncaseeq_crlf : strncaseeq s (13 :: 10 :: text) = true ↔
    ∃ rest, s = 13 :: 10 :: rest ∧ strncaseeq rest text = true := by
  simp only [strncaseeq_iff, List.map_cons]
  constructor
  · intro starts
    match s, starts with
    | [c], starts => exact absurd starts.length_le (by simp)
    | c :: d :: rest, starts =>
      simp only [List.map_cons, List.cons_prefix_cons] at starts
      obtain ⟨cr, lf, starts⟩ := starts
      exact ⟨rest, by rw [(tolower_cr c).mp cr.symm, (tolower_lf d).mp lf.symm], starts⟩
  · rintro ⟨rest, rfl, starts⟩
    simpa only [List.map_cons, List.cons_prefix_cons, true_and] using starts

/-- The search for CRLF and a text stops at the first of the later lines that begins with the
text, wherever that is. -/
theorem find_line (clean : (13 : UInt8) ∉ text) (s : Bytes) :
    (strcasestr (13 :: 10 :: text) s = none ∧
        ∀ line ∈ laterLines s, ¬ strncaseeq line text = true) ∨
      ∃ at' before, strcasestr (13 :: 10 :: text) s = some at' ∧
        laterLines s =
          before ++ firstLine (s.drop (at' + 2)) :: laterLines (s.drop (at' + 2)) ∧
        (∀ line ∈ before, ¬ strncaseeq line text = true) ∧
        strncaseeq (firstLine (s.drop (at' + 2))) text = true := by
  induction s using lines_induction with
  | nil => exact .inl ⟨rfl, nofun⟩
  | crlf rest ih =>
    rw [laterLines_crlf]
    by_cases here : strncaseeq (firstLine rest) text = true
    · have starts : strncaseeq (13 :: 10 :: rest) (13 :: 10 :: text) = true :=
        strncaseeq_crlf.mpr ⟨rest, rfl, by rwa [strncaseeq_firstLine clean]⟩
      exact .inr ⟨0, [], strcasestr_of_here starts, rfl, nofun, here⟩
    · have notHere : ¬ strncaseeq (13 :: 10 :: rest) (13 :: 10 :: text) = true := by
        rw [strncaseeq_crlf]
        rintro ⟨_, same, starts⟩
        cases same
        rw [strncaseeq_firstLine clean] at starts
        exact here starts
      have notLf : ¬ strncaseeq (10 :: rest) (13 :: 10 :: text) = true := by
        rw [strncaseeq_crlf]
        rintro ⟨_, same, _⟩
        cases same
      rw [strcasestr_cons notHere, strcasestr_cons notLf]
      rcases ih with ⟨none, others⟩ | ⟨at', before, found, split', others, this⟩
      · rw [none]
        exact .inl ⟨rfl, List.forall_mem_cons.mpr ⟨here, others⟩⟩
      · rw [found]
        exact .inr ⟨at' + 1 + 1, firstLine rest :: before, rfl, congrArg _ split',
          List.forall_mem_cons.mpr ⟨here, others⟩, this⟩
  | cons c rest inside ih =>
    have notHere : ¬ strncaseeq (c :: rest) (13 :: 10 :: text) = true := by
      rw [strncaseeq_crlf]
      rintro ⟨_, same, _⟩
      exact inside ⟨_, same.symm⟩
    rw [strcasestr_cons notHere, laterLines_cons inside]
    rcases ih with ⟨none, others⟩ | ⟨at', before, found, split', others, this⟩
    · rw [none]
      exact .inl ⟨rfl, others⟩
    · rw [found]
      exact .inr ⟨at' + 1, before, rfl, split', others, this⟩

/-! ## Header lines -/

theorem tolower_colon (c : UInt8) : tolower c = 58 ↔ c = 58 :=
  tolower_eq_iff (.inl (by decide)) (.inl (by decide))

/-- A line has a name if and only if it begins with the name and a colon. -/
theorem valueNamed_eq (clean : (58 : UInt8) ∉ name) (line : Bytes) :
    valueNamed name line =
      if strncaseeq line (name ++ [58]) then some (line.drop (name.length + 1)) else none := by
  have plain {s : Bytes} (clean : (58 : UInt8) ∉ s) : (58 : UInt8) ∉ s.map tolower := by
    intro member
    obtain ⟨c, inside, same⟩ := List.mem_map.mp member
    exact clean ((tolower_colon c).mp same ▸ inside)
  by_cases separated : (58 : UInt8) ∈ line
  · obtain ⟨front, back, rfl, first⟩ := List.eq_append_cons_of_mem separated
    have found : strchr 58 (front ++ 58 :: back) = some front.length :=
      strchr_eq_some.mpr ⟨front, back, rfl, first, rfl⟩
    have named : strcaseeq front name = strncaseeq (front ++ 58 :: back) (name ++ [58]) := by
      rw [Bool.eq_iff_iff, strncaseeq_iff, strcaseeq, beq_iff_eq, List.map_append, List.map_append]
      constructor
      · intro same
        rw [same]
        exact ⟨back.map tolower, by simp⟩
      · rintro ⟨more, same⟩
        rw [List.append_assoc] at same
        simp only [List.map_cons, (tolower_colon 58).mpr rfl, List.map_nil,
          List.singleton_append] at same
        exact (split_at_first (plain clean) (plain first) same).1.symm
    simp only [valueNamed, found, List.take_left, named]
    split
    · rename_i starts
      have sized := congrArg List.length (beq_iff_eq.mp (named ▸ starts : strcaseeq front name = true))
      simp only [List.length_map] at sized
      rw [sized]
    · rfl
  · rw [valueNamed, strchr_eq_none.mpr separated, if_neg]
    intro starts
    apply plain separated
    apply (strncaseeq_iff.mp starts).subset
    rw [List.map_append]
    exact List.mem_append_right _ (by decide)

/-- A message is its header section, an empty line and its body. -/
theorem laterLines_message {message : Bytes} (ends : strstr (lit "\r\n\r\n") message = some at') :
    laterLines message = headerLines message ++
      [] :: firstLine (message.drop (at' + 4)) :: laterLines (message.drop (at' + 4)) := by
  obtain ⟨⟨body, split'⟩, _, _⟩ := strstr_eq_some.mp ends
  have rest : message.drop (at' + 4) = body := by
    rw [← List.drop_drop, ← split']
    rfl
  have whole : message = message.take at' ++ 13 :: 10 :: 13 :: 10 :: body := by
    conv_lhs => rw [← List.take_append_drop at' message, ← split']
    rfl
  rw [headerLines, ends, rest]
  conv_lhs => rw [whole]
  rw [(laterLines_append_crlf _ _).1, firstLine_crlf, laterLines_crlf]

end Miniweb.Lib.HeaderSection
