import Miniweb.Lib.Decimal

/-! JSON texts as bytes: values whose numbers are integers, the text of a value
without spaces, and a reader. What the reader accepts is JSON: strings have no raw
control bytes, numbers no leading zeros, and nothing but space follows the value. Bytes
from 0x80 on are opaque, and only escapes of bytes below are read. -/
namespace Miniweb.Lib.Json

open Miniweb.Lib.CString Miniweb.Lib.Decimal

inductive Value where
  | null
  | bool (b : Bool)
  | number (n : Int)
  | string (s : Bytes)
  | array (items : List Value)
  | object (members : List (Bytes × Value))

/-! ## The text of a value -/

/-- A digit of `%x`. -/
def hexDigit (d : Nat) : UInt8 := if d < 10 then UInt8.ofNat (48 + d) else UInt8.ofNat (87 + d)

/-- `%04x`. -/
def hex4 (n : Nat) : Bytes :=
  [hexDigit (n / 4096 % 16), hexDigit (n / 256 % 16), hexDigit (n / 16 % 16), hexDigit (n % 16)]

/-- A byte of a string: quotes, backslashes and control bytes are escaped. -/
def escape (c : UInt8) : Bytes :=
  if c = 34 ∨ c = 92 then [92, c] else if c < 32 then [92, 117] ++ hex4 c.toNat else [c]

def quote (s : Bytes) : Bytes := 34 :: (s.flatMap escape ++ [34])

mutual

/-- The text of a value. -/
def render : Value → Bytes
  | .null => lit "null"
  | .bool true => lit "true"
  | .bool false => lit "false"
  | .number n => signedText n
  | .string s => quote s
  | .array [] => lit "[]"
  | .array (v :: rest) => 91 :: (render v ++ renderItems rest)
  | .object [] => lit "\x7b\x7d"
  | .object ((k, v) :: rest) => 123 :: (quote k ++ 58 :: (render v ++ renderMembers rest))

/-- The items behind the first, with the closing bracket. -/
def renderItems : List Value → Bytes
  | [] => [93]
  | v :: rest => 44 :: (render v ++ renderItems rest)

/-- The members behind the first, with the closing brace. -/
def renderMembers : List (Bytes × Value) → Bytes
  | [] => [125]
  | (k, v) :: rest => 44 :: (quote k ++ 58 :: (render v ++ renderMembers rest))

end

/-! ### Other ways to escape

A string may be written in more than one way; a writer has its own text for each byte. -/

def quoteBy (e : UInt8 → Bytes) (s : Bytes) : Bytes := 34 :: (s.flatMap e ++ [34])

mutual

/-- The text of a value whose strings are written with `e`. -/
def renderBy (e : UInt8 → Bytes) : Value → Bytes
  | .null => lit "null"
  | .bool true => lit "true"
  | .bool false => lit "false"
  | .number n => signedText n
  | .string s => quoteBy e s
  | .array [] => lit "[]"
  | .array (v :: rest) => 91 :: (renderBy e v ++ renderItemsBy e rest)
  | .object [] => lit "\x7b\x7d"
  | .object ((k, v) :: rest) =>
    123 :: (quoteBy e k ++ 58 :: (renderBy e v ++ renderMembersBy e rest))

/-- The items behind the first, with the closing bracket. -/
def renderItemsBy (e : UInt8 → Bytes) : List Value → Bytes
  | [] => [93]
  | v :: rest => 44 :: (renderBy e v ++ renderItemsBy e rest)

/-- The members behind the first, with the closing brace. -/
def renderMembersBy (e : UInt8 → Bytes) : List (Bytes × Value) → Bytes
  | [] => [125]
  | (k, v) :: rest => 44 :: (quoteBy e k ++ 58 :: (renderBy e v ++ renderMembersBy e rest))

end

mutual

theorem renderBy_escape : (v : Value) → renderBy escape v = render v
  | .null | .bool true | .bool false | .number _ | .string _ | .array [] | .object [] => by
    simp only [renderBy, render, quoteBy, quote]
  | .array (v :: rest) => by
    rw [renderBy, render, renderBy_escape v, renderItemsBy_escape rest]
  | .object ((k, v) :: rest) => by
    rw [renderBy, render, renderBy_escape v, renderMembersBy_escape rest]
    rfl

private theorem renderItemsBy_escape : (items : List Value) →
    renderItemsBy escape items = renderItems items
  | [] => by rw [renderItemsBy, renderItems]
  | v :: rest => by
    rw [renderItemsBy, renderItems, renderBy_escape v, renderItemsBy_escape rest]

private theorem renderMembersBy_escape : (members : List (Bytes × Value)) →
    renderMembersBy escape members = renderMembers members
  | [] => by rw [renderMembersBy, renderMembers]
  | (k, v) :: rest => by
    rw [renderMembersBy, renderMembers, renderBy_escape v, renderMembersBy_escape rest]
    rfl

end

/-! ## The reader -/

/-- A space, a tab or the end of a line. -/
def isSpace (c : UInt8) : Bool := c = 32 || c = 9 || c = 10 || c = 13

def skipSpace (input : Bytes) : Bytes := input.dropWhile isSpace

/-- What follows the byte `c`, if the text starts with it. -/
def expect (c : UInt8) (input : Bytes) : Option Bytes :=
  match skipSpace input with
  | [] => none
  | d :: rest => if d = c then some rest else none

/-- The value of a hexadecimal digit. -/
def hexValue (c : UInt8) : Option Nat :=
  if 48 ≤ c ∧ c ≤ 57 then some (c.toNat - 48)
  else if 97 ≤ c ∧ c ≤ 102 then some (c.toNat - 87)
  else if 65 ≤ c ∧ c ≤ 70 then some (c.toNat - 55)
  else none

/-- The byte four hexadecimal digits stand for. -/
def unhex4 (a b c d : UInt8) : Option UInt8 := do
  let n := (← hexValue a) * 4096 + (← hexValue b) * 256 + (← hexValue c) * 16 + (← hexValue d)
  if n < 128 then some (UInt8.ofNat n) else none

/-- The byte a backslash and this letter stand for. -/
def unescape (c : UInt8) : Option UInt8 :=
  if c = 34 ∨ c = 92 ∨ c = 47 then some c
  else if c = 98 then some 8
  else if c = 102 then some 12
  else if c = 110 then some 10
  else if c = 114 then some 13
  else if c = 116 then some 9
  else none

/-- The string behind an opening quote, and what follows the closing one. -/
def unquote : Bytes → Option (Bytes × Bytes)
  | [] => none
  | c :: rest =>
    if c = 34 then some ([], rest)
    else if c < 32 then none
    else if c = 92 then
      match rest with
      | [] => none
      | e :: rest =>
        if e = 117 then
          match rest with
          | x :: y :: z :: w :: rest =>
            (unhex4 x y z w).bind fun c => (unquote rest).map fun (s, rest) => (c :: s, rest)
          | _ => none
        else (unescape e).bind fun c => (unquote rest).map fun (s, rest) => (c :: s, rest)
    else (unquote rest).map fun (s, rest) => (c :: s, rest)

def parseNumber (input : Bytes) : Option (Value × Bytes) :=
  let negative := input.head? = some 45
  let text := if negative then input.tail else input
  let run := text.takeWhile isdigit
  if run = [] ∨ (1 < run.length ∧ run.head? = some 48) then none
  else
    let n : Int := decimal run
    some (.number (if negative then -n else n), text.dropWhile isdigit)

def parseWord (input : Bytes) : Option (Value × Bytes) :=
  if lit "null" <+: input then some (.null, input.drop 4)
  else if lit "true" <+: input then some (.bool true, input.drop 4)
  else if lit "false" <+: input then some (.bool false, input.drop 5)
  else none

/-- A key, a colon and a value. -/
def parseMember (value : Bytes → Option (Value × Bytes)) (input : Bytes) :
    Option ((Bytes × Value) × Bytes) := do
  let (k, rest) ← unquote (← expect 34 input)
  let (v, rest) ← value (← expect 58 rest)
  some ((k, v), rest)

mutual

/-- A value at the start of the text, and what follows it. -/
def parseValue : Nat → Bytes → Option (Value × Bytes)
  | 0, _ => none
  | fuel + 1, input =>
    if let some rest := expect 34 input then
      (unquote rest).map fun (s, rest) => (.string s, rest)
    else if let some rest := expect 91 input then
      if let some rest := expect 93 rest then some (.array [], rest)
      else do
        let (v, rest) ← parseValue fuel rest
        let (items, rest) ← parseItems fuel rest
        some (.array (v :: items), rest)
    else if let some rest := expect 123 input then
      if let some rest := expect 125 rest then some (.object [], rest)
      else do
        let (m, rest) ← parseMember (parseValue fuel) rest
        let (members, rest) ← parseMembers fuel rest
        some (.object (m :: members), rest)
    else
      let input := skipSpace input
      if let some word := parseWord input then some word else parseNumber input

/-- The items behind the first. -/
def parseItems : Nat → Bytes → Option (List Value × Bytes)
  | 0, _ => none
  | fuel + 1, input =>
    if let some rest := expect 93 input then some ([], rest)
    else do
      let (v, rest) ← parseValue fuel (← expect 44 input)
      let (items, rest) ← parseItems fuel rest
      some (v :: items, rest)

/-- The members behind the first. -/
def parseMembers : Nat → Bytes → Option (List (Bytes × Value) × Bytes)
  | 0, _ => none
  | fuel + 1, input =>
    if let some rest := expect 125 input then some ([], rest)
    else do
      let (m, rest) ← parseMember (parseValue fuel) (← expect 44 input)
      let (members, rest) ← parseMembers fuel rest
      some (m :: members, rest)

end

/-- The value a text is, with nothing but space behind it. -/
def parse (input : Bytes) : Option Value :=
  match parseValue (input.length + 1) input with
  | some (v, rest) => if skipSpace rest = [] then some v else none
  | none => none

/-! ## Reading a text back -/

variable {c d : UInt8} {s rest : Bytes} {n : Nat}

theorem skipSpace_cons (solid : isSpace c = false) : skipSpace (c :: rest) = c :: rest := by
  simp [skipSpace, solid]

theorem expect_same (solid : isSpace c = false) : expect c (c :: rest) = some rest := by
  simp [expect, skipSpace_cons solid]

theorem expect_other (solid : isSpace d = false) (other : d ≠ c) : expect c (d :: rest) = none := by
  simp [expect, skipSpace_cons solid, other]

private theorem hexValue_hexDigit : ∀ d < 16, hexValue (hexDigit d) = some d := by decide

private theorem unhex4_hex4 (small : c < 32) :
    hex4 c.toNat = [48, 48, hexDigit (c.toNat / 16), hexDigit (c.toNat % 16)] ∧
      unhex4 48 48 (hexDigit (c.toNat / 16)) (hexDigit (c.toNat % 16)) = some c := by
  have bound : c.toNat < 32 := UInt8.lt_iff_toNat_lt.mp small
  have zero : hexValue 48 = some 0 := rfl
  have high := hexValue_hexDigit (c.toNat / 16) (by omega)
  have low := hexValue_hexDigit (c.toNat % 16) (by omega)
  constructor
  · have first : c.toNat / 4096 % 16 = 0 := by omega
    have second : c.toNat / 256 % 16 = 0 := by omega
    have third : c.toNat / 16 % 16 = c.toNat / 16 := by omega
    have letter : hexDigit 0 = 48 := rfl
    rw [hex4, first, second, third, letter]
  · have whole : 0 * 4096 + 0 * 256 + c.toNat / 16 * 16 + c.toNat % 16 = c.toNat := by omega
    have below : c.toNat < 128 := by omega
    simp only [unhex4, zero, high, low, Option.bind_eq_bind, Option.bind_some, whole, if_pos below,
      UInt8.ofNat_toNat]

/-- Every byte is read back from its text, whatever follows. -/
def Escapes (e : UInt8 → Bytes) : Prop :=
  ∀ c rest, unquote (e c ++ rest) = (unquote rest).map fun (s, rest) => (c :: s, rest)

theorem escapes_escape : Escapes escape := by
  intro c rest
  unfold escape
  split
  · rename_i special
    have letter : unescape c = some c := by
      rcases special with rfl | rfl <;> decide
    have notU : c ≠ 117 := by
      rcases special with rfl | rfl <;> decide
    rw [List.cons_append, unquote.eq_def]
    simp [letter, notU]
  · rename_i plain
    simp only [not_or] at plain
    split
    · rename_i small
      obtain ⟨text, value⟩ := unhex4_hex4 small
      rw [text, List.append_assoc, List.cons_append, unquote.eq_def]
      simp [value]
    · rename_i visible
      rw [List.cons_append, unquote.eq_def]
      simp [plain.1, plain.2, visible]

variable {e : UInt8 → Bytes}

/-- A string is read back from its quoted text. -/
theorem unquote_flatMap (escapes : Escapes e) (s rest : Bytes) :
    unquote (s.flatMap e ++ 34 :: rest) = some (s, rest) := by
  induction s with
  | nil =>
    rw [unquote.eq_def]
    rfl
  | cons c s ih =>
    rw [List.flatMap_cons, List.append_assoc, escapes, ih]
    rfl

/-- The string a text between quotes stands for. -/
def decodeBody (body : Bytes) : Option Bytes :=
  match unquote (body ++ [34]) with
  | some (s, []) => some s
  | _ => none

theorem decodeBody_flatMap (escapes : Escapes e) (s : Bytes) : decodeBody (s.flatMap e) = some s := by
  rw [decodeBody, unquote_flatMap escapes]

/-- What follows a number does not go on with a digit. -/
def NoDigit (rest : Bytes) : Prop := ∀ c ∈ rest.head?, isdigit c = false

private theorem takeWhile_decimalText (stop : NoDigit rest) :
    (decimalText n ++ rest).takeWhile isdigit = decimalText n ∧
      (decimalText n ++ rest).dropWhile isdigit = rest := by
  have digits : ∀ c ∈ decimalText n, isdigit c = true := fun c member =>
    isdigit_of_mem_decimalText member
  rw [List.takeWhile_append_of_pos digits, List.dropWhile_append_of_pos digits]
  cases rest with
  | nil => simp
  | cons c rest =>
    have := stop c rfl
    simp [this]

/-- A number is read back from its text. -/
theorem parseNumber_signedText (n : Int) (stop : NoDigit rest) :
    parseNumber (signedText n ++ rest) = some (.number n, rest) := by
  obtain ⟨run, after⟩ := takeWhile_decimalText (n := n.natAbs) stop
  have wellFormed : ¬ (decimalText n.natAbs = [] ∨
      (1 < (decimalText n.natAbs).length ∧ (decimalText n.natAbs).head? = some 48)) := by
    rintro (empty | zero)
    · exact decimalText_ne_nil _ empty
    · exact decimalText_noLeadingZero _ zero
  unfold signedText
  split
  · rename_i negative
    simp only [parseNumber, List.cons_append, List.head?_cons, if_true, List.tail_cons, run, after,
      if_neg wellFormed, decimal_decimalText]
    congr 3
    omega
  · rename_i positive
    have noSign : (decimalText n.natAbs ++ rest).head? ≠ some 45 := by
      intro sign
      cases text : decimalText n.natAbs with
      | nil => exact decimalText_ne_nil _ text
      | cons c tail =>
        rw [text, List.cons_append, List.head?_cons] at sign
        have isDigit := isdigit_of_mem_decimalText (n := n.natAbs) (text ▸ List.mem_cons_self)
        rw [Option.some.inj sign] at isDigit
        exact absurd isDigit (by decide)
    simp only [parseNumber, if_neg noSign, run, after, if_neg wellFormed, decimal_decimalText]
    congr 3
    omega

/-- What the reader looks for in front of a value, other than a number. -/
private def otherLeads : Bytes := lit "\"[\x7bntf]"

/-- A number starts with a sign or a digit. -/
private theorem signedText_cons (n : Int) :
    ∃ c tail, signedText n = c :: tail ∧ isSpace c = false ∧ c ∉ otherLeads := by
  have digits : ∀ d < 10, isSpace (digit d) = false ∧ digit d ∉ otherLeads := by decide
  unfold signedText
  split
  · exact ⟨45, _, rfl, by decide⟩
  · cases text : decimalText n.natAbs with
    | nil => exact absurd text (decimalText_ne_nil _)
    | cons c tail =>
      obtain ⟨d, below, rfl⟩ := digit_of_isdigit
        (isdigit_of_mem_decimalText (text ▸ List.mem_cons_self))
      exact ⟨digit d, tail, rfl, digits d below⟩

/-- The first byte of a text is neither space nor a closing bracket. -/
private theorem render_cons (e : UInt8 → Bytes) (v : Value) :
    ∃ c tail, renderBy e v = c :: tail ∧ ¬ (isSpace c = true ∨ c = 93) := by
  cases v with
  | null => exact ⟨110, lit "ull", by rw [renderBy]; decide, by decide⟩
  | bool b =>
    cases b with
    | true => exact ⟨116, lit "rue", by rw [renderBy]; decide, by decide⟩
    | false => exact ⟨102, lit "alse", by rw [renderBy]; decide, by decide⟩
  | number n =>
    obtain ⟨c, tail, text, solid, other⟩ := signedText_cons n
    refine ⟨c, tail, by rw [renderBy, text], ?_⟩
    rintro (space | rfl)
    · rw [solid] at space
      cases space
    · exact other (by decide)
  | string s => exact ⟨34, _, by rw [renderBy, quoteBy], by decide⟩
  | array items =>
    cases items with
    | nil => exact ⟨91, lit "]", by rw [renderBy]; decide, by decide⟩
    | cons v rest => exact ⟨91, _, by rw [renderBy], by decide⟩
  | object members =>
    cases members with
    | nil => exact ⟨123, lit "\x7d", by rw [renderBy]; decide, by decide⟩
    | cons m rest => exact ⟨123, _, by rw [renderBy], by decide⟩

private theorem noDigit_cons (other : isdigit c = false) : NoDigit (c :: rest) := by
  rintro d ⟨⟩
  exact other

private theorem noDigit_renderItems (e : UInt8 → Bytes) (items : List Value) (rest : Bytes) :
    NoDigit (renderItemsBy e items ++ rest) := by
  cases items with
  | nil => exact noDigit_cons (by decide)
  | cons v items =>
    rw [renderItemsBy]
    exact noDigit_cons (by decide)

private theorem noDigit_renderMembers (e : UInt8 → Bytes) (members : List (Bytes × Value))
    (rest : Bytes) : NoDigit (renderMembersBy e members ++ rest) := by
  cases members with
  | nil => exact noDigit_cons (by decide)
  | cons m members =>
    rw [renderMembersBy]
    exact noDigit_cons (by decide)

/-- The reader of values is right with this much fuel. -/
private def Reads (e : UInt8 → Bytes) (fuel : Nat) : Prop :=
  ∀ v rest, (renderBy e v).length ≤ fuel → NoDigit rest →
    parseValue fuel (renderBy e v ++ rest) = some (v, rest)

private theorem parseMember_render {fuel : Nat} (escapes : Escapes e) (reads : Reads e fuel)
    {v : Value} (k : Bytes) (enough : (renderBy e v).length ≤ fuel) (stop : NoDigit rest) :
    parseMember (parseValue fuel) (quoteBy e k ++ 58 :: (renderBy e v ++ rest)) =
      some ((k, v), rest) := by
  have key : quoteBy e k ++ 58 :: (renderBy e v ++ rest) =
      34 :: (k.flatMap e ++ 34 :: 58 :: (renderBy e v ++ rest)) := by
    simp [quoteBy]
  simp only [parseMember, key, expect_same (c := 34) rfl, expect_same (c := 58) rfl, unquote_flatMap escapes,
    reads v rest enough stop, Option.bind_eq_bind, Option.bind_some]

theorem parseWord_none (notN : c ≠ 110) (notT : c ≠ 116) (notF : c ≠ 102) :
    parseWord (c :: rest) = none := by
  have null : lit "null" = 110 :: lit "ull" := rfl
  have true' : lit "true" = 116 :: lit "rue" := rfl
  have false' : lit "false" = 102 :: lit "alse" := rfl
  simp only [parseWord, null, true', false', List.cons_prefix_cons, Ne.symm notN, Ne.symm notT,
    Ne.symm notF, false_and, if_false]

private theorem parseValue_number (fuel : Nat) (n : Int) (stop : NoDigit rest) :
    parseValue (fuel + 1) (signedText n ++ rest) = some (.number n, rest) := by
  obtain ⟨c, tail, text, solid, other⟩ := signedText_cons n
  have leads : otherLeads = [34, 91, 123, 110, 116, 102, 93] := rfl
  simp only [leads, List.mem_cons, List.not_mem_nil, or_false, not_or] at other
  obtain ⟨notQuote, notBracket, notBrace, notN, notT, notF, _⟩ := other
  have input : signedText n ++ rest = c :: (tail ++ rest) := by
    rw [text, List.cons_append]
  rw [parseValue]
  simp only [input, expect_other solid notQuote, expect_other solid notBracket,
    expect_other solid notBrace, skipSpace_cons solid, parseWord_none notN notT notF]
  rw [← input]
  exact parseNumber_signedText n stop

private theorem parseValue_word {fuel : Nat} {word : Bytes} {v : Value} (solid : isSpace c = false)
    (quoteMark : c ≠ 34) (bracket : c ≠ 91) (brace : c ≠ 123)
    (isWord : parseWord (c :: word ++ rest) = some (v, rest)) :
    parseValue (fuel + 1) (c :: word ++ rest) = some (v, rest) := by
  rw [List.cons_append] at isWord ⊢
  rw [parseValue]
  simp only [expect_other solid quoteMark, expect_other solid bracket, expect_other solid brace,
    skipSpace_cons solid, isWord]

private def ReadsItems (e : UInt8 → Bytes) (fuel : Nat) : Prop :=
  ∀ items rest, (renderItemsBy e items).length ≤ fuel →
    parseItems fuel (renderItemsBy e items ++ rest) = some (items, rest)

private def ReadsMembers (e : UInt8 → Bytes) (fuel : Nat) : Prop :=
  ∀ members rest, (renderMembersBy e members).length ≤ fuel →
    parseMembers fuel (renderMembersBy e members ++ rest) = some (members, rest)

private theorem parseValue_array {fuel : Nat} (value : Reads e fuel) (items : ReadsItems e fuel)
    (vs : List Value) (rest : Bytes) (enough : (renderBy e (.array vs)).length ≤ fuel + 1) :
    parseValue (fuel + 1) (renderBy e (.array vs) ++ rest) = some (.array vs, rest) := by
  cases vs with
  | nil =>
    rw [parseValue]
    rfl
  | cons v vs =>
    rw [renderBy, List.length_cons, List.length_append] at enough
    have text : renderBy e (.array (v :: vs)) ++ rest =
        91 :: (renderBy e v ++ (renderItemsBy e vs ++ rest)) := by
      simp [renderBy]
    obtain ⟨c, tail, start, solid⟩ := render_cons e v
    rw [not_or, Bool.not_eq_true] at solid
    have open' : expect 93 (renderBy e v ++ (renderItemsBy e vs ++ rest)) = none := by
      rw [start, List.cons_append]
      exact expect_other solid.1 solid.2
    have first := value v (renderItemsBy e vs ++ rest) (by omega) (noDigit_renderItems e vs rest)
    have others := items vs rest (by omega)
    rw [text, parseValue]
    simp only [expect_other (c := 34) (d := 91) rfl (by decide), expect_same (c := 91) rfl, open',
      first, others, Option.bind_eq_bind, Option.bind_some]

private theorem parseValue_object {fuel : Nat} (escapes : Escapes e) (value : Reads e fuel)
    (members : ReadsMembers e fuel) (ms : List (Bytes × Value)) (rest : Bytes)
    (enough : (renderBy e (.object ms)).length ≤ fuel + 1) :
    parseValue (fuel + 1) (renderBy e (.object ms) ++ rest) = some (.object ms, rest) := by
  cases ms with
  | nil =>
    rw [parseValue]
    rfl
  | cons m ms =>
    obtain ⟨k, v⟩ := m
    simp only [renderBy, List.length_cons, List.length_append] at enough
    have text : renderBy e (.object ((k, v) :: ms)) ++ rest =
        123 :: (quoteBy e k ++ 58 :: (renderBy e v ++ (renderMembersBy e ms ++ rest))) := by
      simp [renderBy]
    have open' : expect 125 (quoteBy e k ++ 58 :: (renderBy e v ++ (renderMembersBy e ms ++ rest))) =
        none := by
      rw [quoteBy, List.cons_append]
      exact expect_other rfl (by decide)
    have first := parseMember_render escapes value k (v := v) (by omega) (noDigit_renderMembers e ms rest)
    have others := members ms rest (by omega)
    rw [text, parseValue]
    simp only [expect_other (c := 34) (d := 123) rfl (by decide),
      expect_other (c := 91) (d := 123) rfl (by decide), expect_same (c := 123) rfl, open', first,
      others, Option.bind_eq_bind, Option.bind_some]

private theorem parseItems_render {fuel : Nat} (value : Reads e fuel) (items : ReadsItems e fuel) :
    ReadsItems e (fuel + 1) := by
  intro vs rest enough
  cases vs with
  | nil =>
    rw [parseItems]
    rfl
  | cons v vs =>
    rw [renderItemsBy, List.length_cons, List.length_append] at enough
    have text : renderItemsBy e (v :: vs) ++ rest =
        44 :: (renderBy e v ++ (renderItemsBy e vs ++ rest)) := by
      simp [renderItemsBy]
    have next := value v (renderItemsBy e vs ++ rest) (by omega) (noDigit_renderItems e vs rest)
    have others := items vs rest (by omega)
    rw [text, parseItems]
    simp only [expect_other (c := 93) (d := 44) rfl (by decide), expect_same (c := 44) rfl, next,
      others, Option.bind_eq_bind, Option.bind_some]

private theorem parseMembers_render {fuel : Nat} (escapes : Escapes e) (value : Reads e fuel)
    (members : ReadsMembers e fuel) : ReadsMembers e (fuel + 1) := by
  intro ms rest enough
  cases ms with
  | nil =>
    rw [parseMembers]
    rfl
  | cons m ms =>
    obtain ⟨k, v⟩ := m
    simp only [renderMembersBy, List.length_cons, List.length_append] at enough
    have text : renderMembersBy e ((k, v) :: ms) ++ rest =
        44 :: (quoteBy e k ++ 58 :: (renderBy e v ++ (renderMembersBy e ms ++ rest))) := by
      simp [renderMembersBy]
    have next := parseMember_render escapes value k (v := v) (by omega) (noDigit_renderMembers e ms rest)
    have others := members ms rest (by omega)
    rw [text, parseMembers]
    simp only [expect_other (c := 125) (d := 44) rfl (by decide), expect_same (c := 44) rfl, next,
      others, Option.bind_eq_bind, Option.bind_some]

private theorem parseValue_render (escapes : Escapes e) (fuel : Nat) :
    Reads e fuel ∧ ReadsItems e fuel ∧ ReadsMembers e fuel := by
  -- The fuel is at least the text that is left, so it is the measure of the induction.
  induction fuel with
  | zero =>
    refine ⟨fun v rest enough => ?_, fun items rest enough => ?_, fun members rest enough => ?_⟩
    · obtain ⟨c, tail, text, _⟩ := render_cons e v
      rw [text] at enough
      cases enough
    · cases items <;> (rw [renderItemsBy] at enough; cases enough)
    · cases members <;> (rw [renderMembersBy] at enough; cases enough)
  | succ fuel ih =>
    obtain ⟨value, items, members⟩ := ih
    refine ⟨fun v rest enough stop => ?_, parseItems_render value items,
      parseMembers_render escapes value members⟩
    cases v with
    | null => exact parseValue_word (by decide) (by decide) (by decide) (by decide) rfl
    | bool b =>
      cases b with
      | true => exact parseValue_word (by decide) (by decide) (by decide) (by decide) rfl
      | false => exact parseValue_word (by decide) (by decide) (by decide) (by decide) rfl
    | number n =>
      rw [renderBy]
      exact parseValue_number fuel n stop
    | string s =>
      have text : renderBy e (.string s) ++ rest = 34 :: (s.flatMap e ++ 34 :: rest) := by
        simp [renderBy, quoteBy]
      rw [text, parseValue]
      simp only [expect_same (c := 34) rfl, unquote_flatMap escapes, Option.map_some]
    | array vs => exact parseValue_array value items vs rest enough
    | object ms => exact parseValue_object escapes value members ms rest enough

/-- A value is read back from its text, however its strings are escaped. -/
theorem parse_renderBy (escapes : Escapes e) (v : Value) : parse (renderBy e v) = some v := by
  have read := (parseValue_render escapes ((renderBy e v).length + 1)).1 v [] (Nat.le_succ _)
    (by simp [NoDigit])
  rw [List.append_nil] at read
  simp only [parse, read]
  rfl

/-- A value is read back from its text. -/
theorem parse_render (v : Value) : parse (render v) = some v := by
  rw [← renderBy_escape]
  exact parse_renderBy escapes_escape v

/-! ## Texts of lists, and the bytes of a text -/

/-- Texts with commas between them. -/
def separated : List Bytes → Bytes
  | [] => []
  | text :: rest => text ++ rest.flatMap (44 :: ·)

private theorem renderItemsBy_eq (e : UInt8 → Bytes) (items : List Value) :
    renderItemsBy e items = (items.map (renderBy e)).flatMap (44 :: ·) ++ [93] := by
  induction items with
  | nil =>
    rw [renderItemsBy]
    rfl
  | cons v items ih => simp [renderItemsBy, ih]

theorem renderBy_array (e : UInt8 → Bytes) (items : List Value) :
    renderBy e (.array items) = 91 :: (separated (items.map (renderBy e)) ++ [93]) := by
  cases items with
  | nil =>
    rw [renderBy]
    rfl
  | cons v items => simp [renderBy, renderItemsBy_eq, separated]

theorem render_array (items : List Value) :
    render (.array items) = 91 :: (separated (items.map render) ++ [93]) := by
  have same : renderBy escape = render := funext renderBy_escape
  rw [← same]
  exact renderBy_array escape items

/-- A loop that puts a comma in front of every text but the first. -/
theorem separated_map {α : Type} (xs : List α) (f : α → Bytes) :
    (xs.zipIdx.flatMap fun (x, i) => (if i > 0 then [44] else []) ++ f x) =
      separated (xs.map f) := by
  have later (k : Nat) (xs : List α) : ((xs.zipIdx (k + 1)).flatMap fun (x, i) =>
      (if i > 0 then [44] else []) ++ f x) = (xs.map f).flatMap (44 :: ·) := by
    induction xs generalizing k with
    | nil => rfl
    | cons x xs ih => simp [List.zipIdx_cons, ih]
  cases xs with
  | nil => rfl
  | cons x xs =>
    rw [List.zipIdx_cons, List.flatMap_cons, later 0]
    rfl

private theorem zero_not_mem_quote (s : Bytes) : 0 ∉ quote s := by
  have letters : ∀ d < 16, hexDigit d ≠ 0 := by decide
  have escaped (c : UInt8) : 0 ∉ escape c := by
    unfold escape
    split
    · rename_i special
      rcases special with rfl | rfl <;> decide
    · split
      · simp only [hex4, List.mem_append, List.mem_cons, List.not_mem_nil, or_false, not_or]
        refine ⟨⟨by decide, by decide⟩, ?_, ?_, ?_, ?_⟩
        all_goals exact (letters _ (Nat.mod_lt _ (by decide))).symm
      · rename_i visible
        rw [List.mem_singleton]
        rintro rfl
        exact visible (by decide)
  simp [quote, escaped]

mutual

/-- A text has no NUL. -/
theorem zero_not_mem_render : (v : Value) → 0 ∉ render v
  | .null => by decide
  | .bool true => by decide
  | .bool false => by decide
  | .number n => by
    rw [render]
    exact not_mem_signedText rfl (by decide)
  | .string s => by
    rw [render]
    exact zero_not_mem_quote s
  | .array [] => by decide
  | .array (v :: rest) => by
    simp [render, zero_not_mem_render v, zero_not_mem_renderItems rest]
  | .object [] => by decide
  | .object ((k, v) :: rest) => by
    simp [render, zero_not_mem_quote, zero_not_mem_render v, zero_not_mem_renderMembers rest]

private theorem zero_not_mem_renderItems : (items : List Value) → 0 ∉ renderItems items
  | [] => by decide
  | v :: rest => by
    simp [renderItems, zero_not_mem_render v, zero_not_mem_renderItems rest]

private theorem zero_not_mem_renderMembers : (members : List (Bytes × Value)) →
    0 ∉ renderMembers members
  | [] => by decide
  | (k, v) :: rest => by
    simp [renderMembers, zero_not_mem_quote, zero_not_mem_render v,
      zero_not_mem_renderMembers rest]

end

/-! ## Taking a value apart -/

/-- The first member with this key. -/
def Value.field (key : Bytes) : Value → Option Value
  | .object members => members.lookup key
  | _ => none

def Value.asString : Value → Option Bytes
  | .string s => some s
  | _ => none

def Value.asNumber : Value → Option Int
  | .number n => some n
  | _ => none

def Value.asArray : Value → Option (List Value)
  | .array items => some items
  | _ => none

end Miniweb.Lib.Json
