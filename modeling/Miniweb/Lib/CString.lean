import Mathlib

/-! NUL-terminated byte strings and the C library functions on them. A string
is the list of its bytes before the terminator; a pointer into it is an offset,
so that a search returns where the match starts. -/
namespace Miniweb.Lib.CString

abbrev Bytes := List UInt8

/-- The bytes of a string literal. -/
def lit (s : String) : Bytes := s.toUTF8.data.toList

theorem lit_slash : lit "/" = [47] := rfl

theorem lit_dot : lit "." = [46] := rfl

/-- The string a pointer to these bytes denotes: everything before the first
NUL. -/
def cstr (memory : Bytes) : Bytes := memory.takeWhile (· ≠ 0)

/-- `isspace` in the C locale. -/
def isspace (c : UInt8) : Bool := c = 32 || (9 ≤ c && c ≤ 13)

/-- `isblank` in the C locale. -/
def isblank (c : UInt8) : Bool := c = 32 || c = 9

/-- `isdigit`. -/
def isdigit (c : UInt8) : Bool := 48 ≤ c && c ≤ 57

/-- `isalnum` in the C locale. -/
def isalnum (c : UInt8) : Bool :=
  isdigit c || (65 ≤ c && c ≤ 90) || (97 ≤ c && c ≤ 122)

/-- `islower` in the C locale. -/
def islower (c : UInt8) : Bool := 97 ≤ c && c ≤ 122

/-- `isxdigit`. -/
def isxdigit (c : UInt8) : Bool := isdigit c || (65 ≤ c && c ≤ 70) || (97 ≤ c && c ≤ 102)

/-- `tolower` in the C locale. -/
def tolower (c : UInt8) : UInt8 := if 65 ≤ c && c ≤ 90 then c + 32 else c

/-- `strchr`: the offset of the first `c`. -/
def strchr (c : UInt8) (s : Bytes) : Option Nat := s.findIdx? (· == c)

/-- `strrchr`: the offset of the last `c`. -/
def strrchr (c : UInt8) (s : Bytes) : Option Nat :=
  (strchr c s.reverse).map (s.length - 1 - ·)

/-- `strcmp(a, b) <= 0`. -/
def strcmpLe : Bytes → Bytes → Bool
  | [], _ => true
  | _ :: _, [] => false
  | a :: as, b :: bs => a < b || (a == b && strcmpLe as bs)

/-- `strstr`: the offset of the first occurrence of `needle`. -/
def strstr (needle : Bytes) : Bytes → Option Nat
  | [] => if needle = [] then some 0 else none
  | c :: rest =>
    if needle.isPrefixOf (c :: rest) then some 0 else (strstr needle rest).map (· + 1)

/-- `strcasestr`: `strstr` without regard to case. -/
def strcasestr (needle s : Bytes) : Option Nat := strstr (needle.map tolower) (s.map tolower)

/-- `strcasecmp(a, b) == 0`. -/
def strcaseeq (a b : Bytes) : Bool := a.map tolower == b.map tolower

/-- `strncasecmp(s, t, strlen(t)) == 0`. -/
def strncaseeq (s t : Bytes) : Bool := (t.map tolower).isPrefixOf (s.map tolower)

/-- `strlcpy` into an array of `size` bytes. -/
def strlcpy (size : Nat) (s : Bytes) : Bytes := s.take (size - 1)

/-- The tokens `strtok_r` returns one after another for a single separator: the
non-empty pieces between separators. -/
def tokens (separator : UInt8) (s : Bytes) : List Bytes := (s.splitOn separator).filter (· ≠ [])

/-- The tokens `strtok_r(.., "\n", ..)` returns one after another: the
non-empty pieces between newlines. -/
def lineTokens (s : Bytes) : List Bytes := (s.splitOn 10).filter (· ≠ [])

/-- The value of a run of decimal digits. -/
def decimal (digits : Bytes) : Nat := digits.foldl (fun n c => n * 10 + (c.toNat - 48)) 0

/-- `strtol(s, NULL, 10)` on a 64-bit `long`: it saturates. -/
def strtol10 (s : Bytes) : Int :=
  let s := s.dropWhile isspace
  let negative := s.head? = some 45
  let s := if s.head? = some 45 ∨ s.head? = some 43 then s.tail else s
  let n : Int := decimal (s.takeWhile isdigit)
  if negative then max (-n) (-(2 ^ 63)) else min n (2 ^ 63 - 1)

/-- `atoi`: the low 32 bits of `strtol`, read as a signed `int`. -/
def atoi (s : Bytes) : Int := (strtol10 s).bmod (2 ^ 32)

/-- The chunks successive calls of `fgets` with a buffer of `room + 1` bytes
read from a file: each ends after a newline, after `room` bytes, or at the end
of the file. `left` is what still fits the chunk being read. -/
def fgetsChunks (room left : Nat) (chunk : Bytes) : Bytes → List Bytes
  | [] => if chunk = [] then [] else [chunk]
  | c :: rest =>
    if c = 10 ∨ left ≤ 1 then (chunk ++ [c]) :: fgetsChunks room room [] rest
    else fgetsChunks room (left - 1) (chunk ++ [c]) rest

/-! ## Searching a string that grows -/

variable {needle s t : Bytes} {at' : Nat}

/-- `strstr` finds the first offset at which the needle starts. -/
theorem strstr_eq_some : strstr needle s = some at' ↔
    needle <+: s.drop at' ∧ at' ≤ s.length ∧ ∀ i < at', ¬ needle <+: s.drop i := by
  induction s generalizing at' with
  | nil =>
    by_cases empty : needle = []
    · subst empty
      simp only [strstr, if_true, Option.some.injEq]
      constructor
      · rintro rfl
        simp
      · rintro ⟨_, bound, _⟩
        exact (Nat.le_zero.mp bound).symm
    · simp [strstr, empty]
  | cons c rest ih =>
    simp only [strstr]
    split
    · rename_i here
      rw [List.isPrefixOf_iff_prefix] at here
      simp only [Option.some.injEq]
      constructor
      · rintro rfl
        exact ⟨here, Nat.zero_le _, fun i before => absurd before (Nat.not_lt_zero i)⟩
      · rintro ⟨_, _, first⟩
        by_contra later
        exact first 0 (Nat.pos_of_ne_zero (Ne.symm later)) here
    · rename_i notHere
      rw [List.isPrefixOf_iff_prefix] at notHere
      simp only [Option.map_eq_some_iff, ih]
      constructor
      · rintro ⟨i, ⟨found, bound, first⟩, rfl⟩
        refine ⟨found, by simpa using bound, fun j before => ?_⟩
        cases j with
        | zero => exact notHere
        | succ j => exact first j (by omega)
      · rintro ⟨found, bound, first⟩
        cases at' with
        | zero => exact absurd found notHere
        | succ i =>
          exact ⟨i, ⟨found, by simpa using bound, fun j before => first (j + 1) (by omega)⟩, rfl⟩

/-- There is a match if and only if the needle is a piece of the string. -/
theorem strstr_eq_none : strstr needle s = none ↔ ¬ needle <:+: s := by
  induction s with
  | nil =>
    by_cases empty : needle = []
    · simp [strstr, empty]
    · simp [strstr, empty]
  | cons c rest ih =>
    rw [List.infix_cons_iff, ← List.isPrefixOf_iff_prefix, strstr]
    split
    · rename_i here
      simp [here]
    · rename_i notHere
      simp [notHere, ih]

/-- A match lies inside the string. -/
theorem strstr_within (found : strstr needle s = some at') : at' + needle.length ≤ s.length := by
  obtain ⟨start, bound, _⟩ := strstr_eq_some.mp found
  have := start.length_le
  rw [List.length_drop] at this
  omega

/-- The first match is still the first behind a part of what is in front of it. -/
theorem strstr_drop {k : Nat} (found : strstr needle s = some at') (before : k ≤ at') :
    strstr needle (s.drop k) = some (at' - k) := by
  obtain ⟨start, bound, first⟩ := strstr_eq_some.mp found
  refine strstr_eq_some.mpr ⟨?_, by rw [List.length_drop]; omega, fun i earlier early => ?_⟩
  · rw [List.drop_drop, Nat.add_sub_cancel' before]
    exact start
  · rw [List.drop_drop] at early
    exact first (k + i) (by omega) early

/-- A match of the longer string that ends inside its front is a match there. -/
private theorem prefix_of_append (within : at' + needle.length ≤ s.length)
    (start : needle <+: (s ++ t).drop at') : needle <+: s.drop at' := by
  rw [List.drop_append_of_le_length (by omega)] at start
  exact List.prefix_of_prefix_length_le start (List.prefix_append _ _)
    (by rw [List.length_drop]; omega)

/-- What follows a string does not move the first match in it. -/
theorem strstr_append (found : strstr needle s = some at') :
    strstr needle (s ++ t) = some at' := by
  have within := strstr_within found
  obtain ⟨start, bound, first⟩ := strstr_eq_some.mp found
  refine strstr_eq_some.mpr ⟨?_, by rw [List.length_append]; omega, fun i before early => ?_⟩
  · rw [List.drop_append_of_le_length bound]
    exact start.trans (List.prefix_append _ _)
  · exact first i before (prefix_of_append (by omega) early)

/-- A match that appears only when more bytes follow reaches into them. -/
theorem strstr_append_late (absent : strstr needle s = none)
    (found : strstr needle (s ++ t) = some at') : s.length < at' + needle.length := by
  by_contra inside
  obtain ⟨start, _, first⟩ := strstr_eq_some.mp found
  have earlier : strstr needle s = some at' := by
    refine strstr_eq_some.mpr ⟨prefix_of_append (by omega) start, by omega, fun i before early => ?_⟩
    refine first i before ?_
    rw [List.drop_append_of_le_length (by omega)]
    exact early.trans (List.prefix_append _ _)
  rw [absent] at earlier
  cases earlier

/-- Appending to memory leaves a terminated string alone, and extends one that
has no terminator yet. -/
theorem cstr_append (s t : Bytes) :
    cstr (s ++ t) = cstr s ∨ (cstr s = s ∧ cstr (s ++ t) = s ++ cstr t) := by
  simp only [cstr, List.takeWhile_append]
  split
  · rename_i whole
    have same : s.takeWhile (· ≠ 0) = s := (List.takeWhile_prefix _).eq_of_length whole
    exact Or.inr ⟨same, rfl⟩
  · exact Or.inl rfl

theorem strstr_cstr_append (found : strstr needle (cstr s) = some at') :
    strstr needle (cstr (s ++ t)) = some at' := by
  rcases cstr_append s t with same | ⟨whole, extended⟩
  · rwa [same]
  · rw [extended]
    rw [whole] at found
    exact strstr_append found

theorem strstr_cstr_append_late (absent : strstr needle (cstr s) = none)
    (found : strstr needle (cstr (s ++ t)) = some at') : s.length < at' + needle.length := by
  rcases cstr_append s t with same | ⟨whole, extended⟩
  · rw [same, absent] at found
    cases found
  · rw [whole] at absent
    rw [extended] at found
    exact strstr_append_late absent found

theorem cstr_length_le (s : Bytes) : (cstr s).length ≤ s.length :=
  (List.takeWhile_prefix _).length_le

/-! ## Without regard to case -/

/-- Only letters change their case. -/
theorem tolower_eq_iff {c d : UInt8} (notUpper : d < 65 ∨ 90 < d) (notLower : d < 97 ∨ 122 < d) :
    tolower c = d ↔ c = d := by
  simp only [tolower, Bool.and_eq_true, decide_eq_true_eq]
  split
  · rename_i letter
    simp only [UInt8.le_iff_toNat_le, UInt8.lt_iff_toNat_lt] at letter notUpper notLower
    rw [← UInt8.toNat_inj, ← UInt8.toNat_inj, UInt8.toNat_add]
    simp at letter notUpper notLower ⊢
    omega
  · rfl

theorem strncaseeq_iff : strncaseeq s t = true ↔ t.map tolower <+: s.map tolower := by
  rw [strncaseeq, List.isPrefixOf_iff_prefix]

theorem strncaseeq_length (starts : strncaseeq s t = true) : t.length ≤ s.length := by
  simpa only [List.length_map] using (strncaseeq_iff.mp starts).length_le

theorem strncaseeq_take {k : Nat} (starts : strncaseeq s t = true) :
    strncaseeq s (t.take k) = true := by
  rw [strncaseeq_iff, List.map_take]
  exact (List.take_prefix _ _).trans (strncaseeq_iff.mp starts)

/-- `strcasestr` finds the first offset at which the needle starts in any case. -/
theorem strcasestr_eq_some : strcasestr needle s = some at' ↔
    strncaseeq (s.drop at') needle = true ∧ at' ≤ s.length ∧
      ∀ i < at', ¬ strncaseeq (s.drop i) needle = true := by
  simp only [strcasestr, strstr_eq_some, strncaseeq_iff, List.map_drop, List.length_map]

theorem strcasestr_within (found : strcasestr needle s = some at') :
    at' + needle.length ≤ s.length := by
  simpa only [List.length_map] using strstr_within found

theorem strcasestr_cons {c : UInt8} (here : ¬ strncaseeq (c :: s) needle = true) :
    strcasestr needle (c :: s) = (strcasestr needle s).map (· + 1) := by
  rw [strncaseeq, List.map_cons] at here
  rw [strcasestr, List.map_cons, strstr, if_neg here]
  rfl

theorem strcasestr_of_here (here : strncaseeq s needle = true) : strcasestr needle s = some 0 :=
  strcasestr_eq_some.mpr ⟨here, Nat.zero_le _, fun i before => absurd before (Nat.not_lt_zero i)⟩

/-- A text with no byte `c` does not reach past one. -/
theorem strncaseeq_append {c : UInt8} {t : Bytes} (rest : Bytes) (plain : ∀ d, tolower d = c ↔ d = c)
    (clean : c ∉ t) : strncaseeq (s ++ c :: rest) t = strncaseeq s t := by
  rw [Bool.eq_iff_iff, strncaseeq_iff, strncaseeq_iff, List.map_append]
  constructor
  · intro starts
    refine List.prefix_of_prefix_length_le starts (List.prefix_append _ _) ?_
    by_contra longer
    -- the text would have a `c` where the string has one
    have inside : (s.map tolower).length < (t.map tolower).length := by omega
    have same := starts.getElem inside
    rw [List.getElem_append_right (Nat.le_refl _)] at same
    simp only [List.getElem_map, Nat.sub_self, List.map_cons, List.getElem_cons_zero,
      (plain c).mpr rfl] at same
    rw [plain] at same
    exact clean (same ▸ List.getElem_mem _)
  · exact fun starts => starts.trans (List.prefix_append _ _)

/-! ## Splitting at a separator -/

/-- `strchr` finds the first occurrence. -/
theorem strchr_eq_some {c : UInt8} {n : Nat} : strchr c s = some n ↔
    ∃ front back, s = front ++ c :: back ∧ c ∉ front ∧ front.length = n := by
  simp only [strchr, List.findIdx?_eq_some_iff_getElem, beq_iff_eq]
  constructor
  · rintro ⟨inside, here, earlier⟩
    refine ⟨s.take n, s.drop (n + 1), ?_, fun member => ?_, by simp [inside.le]⟩
    · rw [← here]
      simp
    · obtain ⟨i, bound, same⟩ := List.mem_take_iff_getElem.mp member
      exact earlier i (by omega) same
  · rintro ⟨front, back, rfl, clean, rfl⟩
    refine ⟨by simp, by simp, fun i before same => clean ?_⟩
    rw [List.getElem_append_left before] at same
    exact same ▸ List.getElem_mem before

theorem strchr_eq_none {c : UInt8} : strchr c s = none ↔ c ∉ s := by
  simp only [strchr, List.findIdx?_eq_none_iff, beq_eq_false_iff_ne]
  exact ⟨fun differs member => differs c member rfl, fun clean x member same =>
    clean (same ▸ member)⟩

/-- `strrchr` finds the last occurrence. -/
theorem strrchr_eq_some {c : UInt8} {n : Nat} : strrchr c s = some n ↔
    ∃ front back, s = front ++ c :: back ∧ c ∉ back ∧ front.length = n := by
  simp only [strrchr, Option.map_eq_some_iff, strchr_eq_some]
  constructor
  · rintro ⟨_, ⟨front, back, turned, clean, rfl⟩, rfl⟩
    have same : s = back.reverse ++ c :: front.reverse := by
      simpa using congrArg List.reverse turned
    refine ⟨back.reverse, front.reverse, same, by simpa using clean, ?_⟩
    rw [same]
    simp
  · rintro ⟨front, back, rfl, clean, rfl⟩
    exact ⟨back.length, ⟨back.reverse, front.reverse, by simp, by simpa using clean, by simp⟩, by
      simp⟩

theorem strrchr_append_cons {c : UInt8} {front back : Bytes} (clean : c ∉ back) :
    strrchr c (front ++ c :: back) = some front.length :=
  strrchr_eq_some.mpr ⟨front, back, rfl, clean, rfl⟩

theorem strrchr_eq_none {c : UInt8} : strrchr c s = none ↔ c ∉ s := by
  rw [strrchr, Option.map_eq_none_iff, strchr_eq_none, List.mem_reverse]

/-- Texts that are joined by a byte the first does not contain split there. -/
theorem split_at_first {c : UInt8} {front front' back back' : Bytes} (clean : c ∉ front)
    (clean' : c ∉ front') (same : front ++ c :: back = front' ++ c :: back') :
    front = front' ∧ back = back' := by
  induction front generalizing front' with
  | nil =>
    cases front' with
    | nil => exact ⟨rfl, (List.cons.inj same).2⟩
    | cons d rest =>
      obtain ⟨rfl, _⟩ := List.cons.inj same
      exact absurd List.mem_cons_self clean'
  | cons d front ih =>
    cases front' with
    | nil =>
      obtain ⟨rfl, _⟩ := List.cons.inj same
      exact absurd List.mem_cons_self clean
    | cons d' front' =>
      obtain ⟨rfl, rest⟩ := List.cons.inj same
      obtain ⟨rfl, rfl⟩ := ih (fun member => clean (List.mem_cons_of_mem _ member))
        (fun member => clean' (List.mem_cons_of_mem _ member)) rest
      exact ⟨rfl, rfl⟩

/-- And at the last such byte, when the second does not contain it. -/
theorem split_at_last {c : UInt8} {front front' back back' : Bytes} (clean : c ∉ back)
    (clean' : c ∉ back') (same : front ++ c :: back = front' ++ c :: back') :
    front = front' ∧ back = back' := by
  have turned : back.reverse ++ c :: front.reverse = back'.reverse ++ c :: front'.reverse := by
    simpa using congrArg List.reverse same
  obtain ⟨backs, fronts⟩ := split_at_first (by simpa using clean) (by simpa using clean') turned
  exact ⟨List.reverse_inj.mp fronts, List.reverse_inj.mp backs⟩

/-- A piece between separators holds none, and is a piece of the string. -/
theorem piece_of_splitOn {c : UInt8} {s piece : Bytes} (member : piece ∈ s.splitOn c) :
    c ∉ piece ∧ piece <:+: s := by
  by_cases separated : c ∈ s
  · obtain ⟨front, back, rfl, clean⟩ := List.eq_append_cons_of_mem separated
    rw [List.splitOn_append_cons_self_of_not_mem clean] at member
    rcases List.mem_cons.mp member with rfl | later
    · exact ⟨clean, (List.prefix_append _ _).isInfix⟩
    · obtain ⟨clean', within⟩ := piece_of_splitOn later
      refine ⟨clean', within.trans ?_⟩
      exact ((List.suffix_cons c back).trans (List.suffix_append _ _)).isInfix
  · rw [List.splitOn_eq_singleton separated] at member
    rw [List.mem_singleton.mp member]
    exact ⟨separated, List.infix_rfl⟩
termination_by s.length

theorem tokens_append_cons {c : UInt8} (front back : Bytes) :
    tokens c (front ++ c :: back) = tokens c front ++ tokens c back := by
  rw [tokens, List.splitOn_append_cons_self, List.filter_append]
  rfl

/-- A string without the separator is its only token. -/
theorem tokens_of_not_mem {c : UInt8} {s : Bytes} (clean : c ∉ s) :
    tokens c s = if s = [] then [] else [s] := by
  rw [tokens, List.splitOn_eq_singleton clean, List.filter_singleton]
  by_cases empty : s = []
  · simp [empty]
  · simp [empty]

/-- The first token stands behind separators only, and ends at the end or in front of the
rest. -/
theorem tokens_eq_cons {c : UInt8} {s token : Bytes} {rest : List Bytes}
    (same : tokens c s = token :: rest) :
    ∃ lead back, s = lead ++ token ++ back ∧ (∀ d ∈ lead, d = c) ∧ token ≠ [] ∧ c ∉ token ∧
      (back = [] ∧ rest = [] ∨ ∃ back', back = c :: back' ∧ tokens c back' = rest) := by
  by_cases separated : c ∈ s
  · obtain ⟨front, back, rfl, clean⟩ := List.eq_append_cons_of_mem separated
    rw [tokens_append_cons, tokens_of_not_mem clean] at same
    split at same
    · rename_i empty
      obtain ⟨lead, back', split', only, rest'⟩ := tokens_eq_cons (s := back) same
      refine ⟨c :: lead, back', by simp [empty, split'], fun d member => ?_, rest'⟩
      rcases List.mem_cons.mp member with here | later
      · exact here
      · exact only d later
    · rename_i nonempty
      obtain ⟨rfl, rfl⟩ := List.cons.inj same
      exact ⟨[], c :: back, by simp, by simp, nonempty, clean, .inr ⟨back, rfl, rfl⟩⟩
  · rw [tokens_of_not_mem separated] at same
    split at same
    · cases same
    · rename_i nonempty
      obtain ⟨rfl, rfl⟩ := List.cons.inj same
      exact ⟨[], [], by simp, by simp, nonempty, separated, .inl ⟨rfl, rfl⟩⟩
termination_by s.length

/-- What follows a string never takes away a token. -/
theorem tokens_length_append {c : UInt8} (s t : Bytes) :
    (tokens c s).length ≤ (tokens c (s ++ t)).length := by
  by_cases separated : c ∈ s
  · obtain ⟨front, back, rfl, _⟩ := List.eq_append_cons_of_mem separated
    have later := tokens_length_append (c := c) back t
    rw [List.append_assoc, List.cons_append, tokens_append_cons, tokens_append_cons,
      List.length_append, List.length_append]
    omega
  · rw [tokens_of_not_mem separated]
    split
    · exact Nat.zero_le _
    · rename_i nonempty
      by_cases separated' : c ∈ t
      · obtain ⟨front, back, rfl, clean⟩ := List.eq_append_cons_of_mem separated'
        rw [← List.append_assoc, tokens_append_cons, tokens_of_not_mem (by simp [separated, clean]),
          if_neg (by simp [nonempty])]
        simp
      · rw [tokens_of_not_mem (by simp [separated, separated']), if_neg (by simp [nonempty])]
        simp
termination_by s.length

end Miniweb.Lib.CString
