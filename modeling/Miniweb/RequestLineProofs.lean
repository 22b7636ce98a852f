import Miniweb.Net.Worker

/-! What `parse_request_line` accepts. It looks for the two spaces in the whole buffer and
for the line end behind them only, so that the parts it returns may reach beyond the first
line. They do when the first line has fewer than two spaces and the text up to the first
line end behind the second space has the form of a request line. -/
namespace Miniweb.RequestLineProofs

open Miniweb.Lib.CString Miniweb.Net

/-- The line end. -/
abbrev lineEnd : Bytes := lit "\r\n"

/-- The bytes before the first line end. -/
def firstLine (buf : Bytes) : Bytes := buf.take ((strstr lineEnd buf).getD buf.length)

/-- The parts are not empty and fit their arrays, and the first two have no space. -/
structure PartsFit (line : RequestLine) : Prop where
  method : 0 < line.method.length ∧ line.method.length < 32
  url : 0 < line.url.length ∧ line.url.length < 512
  version : 0 < line.version.length ∧ line.version.length < 32
  methodNoSpace : 32 ∉ line.method
  urlNoSpace : 32 ∉ line.url

/-- The text is method, space, url, space, version. -/
structure IsRequestLine (text : Bytes) (line : RequestLine) : Prop where
  parts : PartsFit line
  text : text = line.method ++ 32 :: (line.url ++ 32 :: line.version)

/-- The buffer starts with method, space, url and space, with the first line end behind them
at the end of the version. -/
structure StartsWith (buf : Bytes) (line : RequestLine) (rest : Bytes) : Prop where
  parts : PartsFit line
  text : buf = line.method ++ 32 :: (line.url ++ 32 :: rest)
  lineEnd : strstr lineEnd rest = some line.version.length
  version : line.version <+: rest

variable {buf rest : Bytes} {line : RequestLine} {n : Nat}

private theorem take_front (front : Bytes) (c : UInt8) (back : Bytes) :
    (front ++ c :: back).take front.length = front := List.take_left

private theorem drop_front (front : Bytes) (c : UInt8) (back : Bytes) :
    (front ++ c :: back).drop (front.length + 1) = back := by
  simp [List.drop_append]

/-- What is parsed is what the buffer starts with. -/
theorem parseRequestLine_eq_some_iff :
    parseRequestLine buf = some line ↔ ∃ rest, StartsWith buf line rest := by
  constructor
  · intro parsed
    unfold parseRequestLine at parsed
    split at parsed
    · cases parsed
    · rename_i mlen method
      obtain ⟨method, afterMethod, rfl, methodNoSpace, rfl⟩ := strchr_eq_some.mp method
      rw [drop_front, take_front] at parsed
      split at parsed
      · cases parsed
      · rename_i methodFilled
        simp only [] at parsed
        split at parsed
        · cases parsed
        · rename_i ulen url
          obtain ⟨url, rest, rfl, urlNoSpace, rfl⟩ := strchr_eq_some.mp url
          rw [drop_front, take_front] at parsed
          split at parsed
          · cases parsed
          · rename_i vlen ends
            have within := strstr_within ends
            have length : (rest.take vlen).length = vlen := by
              rw [List.length_take]
              omega
            split at parsed
            · cases parsed
            · split at parsed
              · cases parsed
              · cases parsed
                refine ⟨rest, ⟨?_, ?_, ?_, methodNoSpace, urlNoSpace⟩, rfl, ?_, List.take_prefix _ _⟩
                · simp only
                  omega
                · simp only
                  omega
                · simp only [length]
                  omega
                · simp only [length]
                  exact ends
  · rintro ⟨rest, parts, rfl, ends, version⟩
    have method : strchr 32 (line.method ++ 32 :: (line.url ++ 32 :: rest)) = some line.method.length :=
      strchr_eq_some.mpr ⟨_, _, rfl, parts.methodNoSpace, rfl⟩
    have url : strchr 32 (line.url ++ 32 :: rest) = some line.url.length :=
      strchr_eq_some.mpr ⟨_, _, rfl, parts.urlNoSpace, rfl⟩
    obtain ⟨_, _⟩ := parts.method
    obtain ⟨_, _⟩ := parts.url
    obtain ⟨_, _⟩ := parts.version
    unfold parseRequestLine
    simp only [method, drop_front, take_front, url]
    rw [ends]
    simp only
    rw [if_neg (by omega), if_neg (by omega), if_neg (by omega), ← List.prefix_iff_eq_take.mp version]

/-! ## The first line -/

/-- The first line has both spaces of a request line. -/
def TwoSpaces (buf : Bytes) : Prop := 2 ≤ (firstLine buf).count 32

instance (buf : Bytes) : Decidable (TwoSpaces buf) := inferInstanceAs (Decidable (_ ≤ _))

theorem firstLine_eq (found : strstr lineEnd buf = some n) : firstLine buf = buf.take n := by
  rw [firstLine, found, Option.getD_some]

/-- A request line has two spaces at least. -/
theorem twoSpaces_of_isRequestLine (isLine : IsRequestLine (firstLine buf) line) : TwoSpaces buf := by
  rw [TwoSpaces, isLine.text]
  simp only [List.count_append, List.count_cons_self]
  omega

/-- A request line in the first line is what the buffer starts with. -/
theorem startsWith_of_isRequestLine (contains : (strstr lineEnd buf).isSome = true)
    (isLine : IsRequestLine (firstLine buf) line) : ∃ rest, StartsWith buf line rest := by
  obtain ⟨n, found⟩ := Option.isSome_iff_exists.mp contains
  have inside := strstr_within found
  have text := isLine.text
  rw [firstLine_eq found] at text
  have split : buf = line.method ++ 32 :: (line.url ++ 32 :: (line.version ++ buf.drop n)) := by
    calc buf = buf.take n ++ buf.drop n := (List.take_append_drop n buf).symm
      _ = _ := by simp [text]
  have length := congrArg List.length text
  simp only [List.length_take, List.length_append, List.length_cons] at length
  refine ⟨line.version ++ buf.drop n, isLine.parts, split, ?_, List.prefix_append _ _⟩
  have skipped := strstr_drop found (k := line.method.length + 1 + (line.url.length + 1)) (by omega)
  have behind : buf.drop (line.method.length + 1 + (line.url.length + 1)) =
      line.version ++ buf.drop n := by
    conv_lhs => rw [split]
    rw [← List.drop_drop, drop_front, drop_front]
  rw [behind] at skipped
  rw [skipped]
  congr 1
  omega

/-- When the first line has both spaces, what the buffer starts with is in it. -/
theorem isRequestLine_of_startsWith (contains : (strstr lineEnd buf).isSome = true)
    (spaces : TwoSpaces buf) (starts : StartsWith buf line rest) :
    IsRequestLine (firstLine buf) line := by
  obtain ⟨n, found⟩ := Option.isSome_iff_exists.mp contains
  refine ⟨starts.parts, ?_⟩
  rw [TwoSpaces, firstLine_eq found] at spaces
  rw [firstLine_eq found]
  have behind : buf.drop (line.method.length + 1 + (line.url.length + 1)) = rest := by
    rw [starts.text, ← List.drop_drop, drop_front, drop_front]
  -- With the line end in front of the second space there would be one space at most.
  have ends : line.method.length + 1 + (line.url.length + 1) ≤ n := by
    by_contra early
    have front : buf.take n <+: line.method ++ 32 :: line.url := by
      have text : buf = (line.method ++ 32 :: line.url) ++ 32 :: rest := by simp [starts.text]
      rw [text, List.take_append_of_le_length (by simp only [List.length_append, List.length_cons]; omega)]
      exact List.take_prefix _ _
    have once := front.sublist.count_le 32
    rw [List.count_append, List.count_cons_self, List.count_eq_zero.mpr starts.parts.methodNoSpace,
      List.count_eq_zero.mpr starts.parts.urlNoSpace] at once
    omega
  have skipped := strstr_drop found ends
  rw [behind, starts.lineEnd] at skipped
  have length := Option.some.inj skipped
  have whole : buf = line.method ++ 32 :: (line.url ++ 32 :: line.version) ++
      rest.drop line.version.length := by
    rw [starts.text]
    conv_lhs => rw [← List.take_append_drop line.version.length rest,
      ← List.prefix_iff_eq_take.mp starts.version]
    simp
  conv_lhs => rw [whole]
  apply List.take_left'
  simp only [List.length_append, List.length_cons]
  omega

/-! ## What is accepted -/

/-- The parser does what its comment says: it accepts the request lines and returns their
parts, none of which reaches into another line. -/
structure ParsesFirstLine (buf : Bytes) : Prop where
  accepts : ∀ line, parseRequestLine buf = some line ↔ IsRequestLine (firstLine buf) line
  within : ∀ line, parseRequestLine buf = some line →
    ¬ lineEnd <:+: line.method ∧ ¬ lineEnd <:+: line.url ∧ ¬ lineEnd <:+: line.version

/-- The first line lacks a space, and what is found with the spaces of later lines has the
form of a request line. -/
def SpansLines (buf : Bytes) : Prop :=
  ¬ TwoSpaces buf ∧ ∃ line rest, StartsWith buf line rest

/-- There is no line end in the first line. -/
theorem firstLine_noLineEnd (contains : (strstr lineEnd buf).isSome = true) :
    ¬ lineEnd <:+: firstLine buf := by
  obtain ⟨n, found⟩ := Option.isSome_iff_exists.mp contains
  rw [firstLine_eq found]
  rintro ⟨front, back, text⟩
  obtain ⟨_, _, first⟩ := strstr_eq_some.mp found
  have length := congrArg List.length text
  have two : lineEnd.length = 2 := rfl
  simp only [List.length_append, List.length_take, two] at length
  apply first front.length (by omega)
  rw [← List.take_append_drop n buf, ← text, List.append_assoc, List.append_assoc, List.drop_left]
  exact List.prefix_append _ _

/-- For every buffer with a line end: `parse_request_line` accepts exactly the request lines
and returns their parts if and only if the buffer does not span lines. -/
theorem parsesFirstLine_iff (contains : (strstr lineEnd buf).isSome = true) :
    ParsesFirstLine buf ↔ ¬ SpansLines buf := by
  constructor
  · rintro parses ⟨few, line, rest, starts⟩
    have parsed := parseRequestLine_eq_some_iff.mpr ⟨rest, starts⟩
    exact few (twoSpaces_of_isRequestLine ((parses.accepts line).mp parsed))
  · intro inside
    have accepts : ∀ line, parseRequestLine buf = some line ↔ IsRequestLine (firstLine buf) line := by
      intro line
      rw [parseRequestLine_eq_some_iff]
      constructor
      · rintro ⟨rest, starts⟩
        by_cases spaces : TwoSpaces buf
        · exact isRequestLine_of_startsWith contains spaces starts
        · exact absurd ⟨spaces, line, rest, starts⟩ inside
      · exact startsWith_of_isRequestLine contains
    refine ⟨accepts, fun line parsed => ?_⟩
    have clean := firstLine_noLineEnd contains
    rw [((accepts line).mp parsed).text] at clean
    refine ⟨fun reaches => clean ?_, fun reaches => clean ?_, fun reaches => clean ?_⟩
    · exact reaches.trans (List.prefix_append _ _).isInfix
    · exact reaches.trans ⟨line.method ++ [32], 32 :: line.version, by simp⟩
    · exact reaches.trans ⟨line.method ++ 32 :: (line.url ++ [32]), [], by simp⟩

/-- A request whose first line is complete. -/
theorem parsesFirstLine_get :
    ParsesFirstLine (lit "GET /a HTTP/1.1\r\nHost: x\r\n\r\n") ∧
      parseRequestLine (lit "GET /a HTTP/1.1\r\nHost: x\r\n\r\n") =
        some ⟨lit "GET", lit "/a", lit "HTTP/1.1"⟩ := by
  refine ⟨(parsesFirstLine_iff (by decide +kernel)).mpr ?_, by decide +kernel⟩
  rintro ⟨few, _⟩
  exact few (by decide +kernel)

/-- A request without a version is accepted; its url reaches into the next line, which also
gives it a version. -/
theorem parse_spans_lines :
    ¬ ∀ buf : Bytes, (strstr lineEnd buf).isSome = true → ParsesFirstLine buf := by
  intro always
  have parses := always (lit "GET /a\r\nHost: x\r\n\r\n") (by decide +kernel)
  have parsed : parseRequestLine (lit "GET /a\r\nHost: x\r\n\r\n") =
      some ⟨lit "GET", lit "/a\r\nHost:", lit "x"⟩ := by
    decide +kernel
  obtain ⟨_, url, _⟩ := parses.within _ parsed
  exact url (by decide +kernel)

end Miniweb.RequestLineProofs
