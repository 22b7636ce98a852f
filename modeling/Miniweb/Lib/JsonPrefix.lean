import Miniweb.Lib.Json

/-! A JSON text cannot be cut short. The reader decides from what it has read: a value
that does not end in a run of digits is read the same way when more text follows. So an
object's text is never the front of another's, unless only space is missing. -/
namespace Miniweb.Lib.Json

open Miniweb.Lib.CString

variable {c d : UInt8} {input tail rest : Bytes} {fuel : Nat} {v : Value}

/-! ## The parts of the reader -/

theorem skipSpace_append (lead : skipSpace input = d :: tail) (q : Bytes) :
    skipSpace (input ++ q) = d :: (tail ++ q) := by
  unfold skipSpace at lead ⊢
  rw [List.dropWhile_append, lead]
  rfl

theorem expect_of_lead (lead : skipSpace input = d :: tail) :
    expect c input = if d = c then some tail else none := by
  rw [expect, lead]

theorem lead_of_expect (found : expect c input = some rest) : skipSpace input = c :: rest := by
  unfold expect at found
  split at found
  · cases found
  · rename_i d tail lead
    split at found
    · rename_i same
      cases found
      rw [lead, same]
    · cases found

theorem expect_append (found : expect c input = some rest) (q : Bytes) :
    expect c (input ++ q) = some (rest ++ q) := by
  rw [expect_of_lead (skipSpace_append (lead_of_expect found) q), if_pos rfl]

theorem expect_append_none (lead : skipSpace input = d :: tail)
    (other : ∀ rest, expect c input = some rest → False) (q : Bytes) :
    expect c (input ++ q) = none := by
  have different : d ≠ c := by
    rintro rfl
    exact other tail (by rw [expect_of_lead lead, if_pos rfl])
  rw [expect_of_lead (skipSpace_append lead q), if_neg different]

/-- A byte in front of a string that is read is read in front of the longer one. -/
private theorem map_append {s : Bytes} {head : UInt8} (q : Bytes)
    (ih : ∀ {s rest}, unquote input = some (s, rest) → unquote (input ++ q) = some (s, rest ++ q))
    (read : (unquote input).map (fun (s, rest) => (head :: s, rest)) = some (s, rest)) :
    (unquote (input ++ q)).map (fun (s, rest) => (head :: s, rest)) = some (s, rest ++ q) := by
  obtain ⟨⟨s', rest'⟩, inner, same⟩ := Option.map_eq_some_iff.mp read
  obtain ⟨rfl, rfl⟩ := Prod.mk.inj same
  rw [ih inner]
  rfl

theorem unquote_append {s : Bytes} (read : unquote input = some (s, rest)) (q : Bytes) :
    unquote (input ++ q) = some (s, rest ++ q) := by
  fun_induction unquote input generalizing s rest with
  | case1 => cases read
  | case2 tail =>
    cases read
    rw [List.cons_append, unquote.eq_def]
    rfl
  | case3 => cases read
  | case4 => cases read
  | case5 x y z w tail open' visible ih =>
    obtain ⟨byte, value, inner⟩ := Option.bind_eq_some_iff.mp read
    simp only [List.cons_append]
    rw [unquote.eq_def]
    simp only [if_neg open', if_neg visible, if_true, value, Option.bind_some]
    exact map_append q ih inner
  | case6 => cases read
  | case7 letter tail other open' visible ih =>
    obtain ⟨byte, value, inner⟩ := Option.bind_eq_some_iff.mp read
    simp only [List.cons_append]
    rw [unquote.eq_def]
    simp only [if_neg open', if_neg visible, if_true, if_neg other, value, Option.bind_some]
    exact map_append q ih inner
  | case8 c tail open' visible plain ih =>
    rw [List.cons_append, unquote.eq_def]
    simp only [if_neg open', if_neg visible, if_neg plain]
    exact map_append q ih read

theorem parseWord_append (read : parseWord input = some (v, rest)) (q : Bytes) :
    parseWord (input ++ q) = some (v, rest ++ q) := by
  have null : lit "null" = [110, 117, 108, 108] := rfl
  have true' : lit "true" = [116, 114, 117, 101] := rfl
  have false' : lit "false" = [102, 97, 108, 115, 101] := rfl
  simp only [parseWord, null, true', false'] at read ⊢
  split at read
  · rename_i front
    obtain ⟨tail, rfl⟩ := front
    cases read
    simp
  · split at read
    · rename_i front
      obtain ⟨tail, rfl⟩ := front
      cases read
      simp
    · split at read
      · rename_i front
        obtain ⟨tail, rfl⟩ := front
        cases read
        simp
      · cases read

/-- A number starts with a sign or a digit, so it is not taken for a word. -/
theorem parseWord_of_number (read : parseNumber (d :: tail) = some (v, rest)) (q : Bytes) :
    parseWord (d :: q) = none := by
  have lead : d = 45 ∨ isdigit d = true := by
    by_cases sign : d = 45
    · exact .inl sign
    · refine .inr ?_
      by_contra other
      simp [parseNumber, sign, other] at read
  rcases lead with rfl | digit
  · exact parseWord_none (by decide) (by decide) (by decide)
  · refine parseWord_none ?_ ?_ ?_
    · rintro rfl
      exact absurd digit (by decide)
    · rintro rfl
      exact absurd digit (by decide)
    · rintro rfl
      exact absurd digit (by decide)

theorem parseNumber_append (read : parseNumber (d :: tail) = some (v, rest)) (ended : rest ≠ [])
    (q : Bytes) : parseNumber (d :: (tail ++ q)) = some (v, rest ++ q) := by
  have run : ∀ {text : Bytes}, text.dropWhile isdigit ≠ [] →
      (text ++ q).takeWhile isdigit = text.takeWhile isdigit ∧
        (text ++ q).dropWhile isdigit = text.dropWhile isdigit ++ q := by
    intro text stops
    have partial' : (text.takeWhile isdigit).length ≠ text.length := by
      intro all
      have whole := (List.takeWhile_prefix isdigit).eq_of_length all
      exact stops (List.dropWhile_eq_nil_iff.mpr (List.takeWhile_eq_self_iff.mp whole))
    rw [List.takeWhile_append, if_neg partial', List.dropWhile_append, if_neg (by simpa using stops)]
    exact ⟨rfl, rfl⟩
  by_cases sign : d = 45
  · simp only [parseNumber, sign, List.head?_cons, if_true, List.tail_cons] at read ⊢
    split at read
    · cases read
    · rename_i wellFormed
      cases read
      obtain ⟨digits, after⟩ := run ended
      rw [digits, after, if_neg wellFormed]
  · have noSign : ∀ text : Bytes, ¬ (d :: text).head? = some 45 := by
      intro text
      simpa using sign
    simp only [parseNumber, if_neg (noSign _)] at read ⊢
    split at read
    · cases read
    · rename_i wellFormed
      cases read
      obtain ⟨digits, after⟩ := run ended
      rw [← List.cons_append, digits, after, if_neg wellFormed]

theorem number_of_parseNumber (read : parseNumber input = some (v, rest)) : ∃ n, v = .number n := by
  simp only [parseNumber, Option.ite_none_left_eq_some] at read
  exact ⟨_, (Prod.mk.inj (Option.some.inj read.2)).1.symm⟩

/-! ## The reader -/

/-- Nothing that follows the value can still belong to it. -/
def Ended (v : Value) (rest : Bytes) : Prop := rest ≠ [] ∨ ∀ n, v ≠ .number n

/-- With this much fuel, and with more, a value that has ended is read the same way in
front of more text. -/
def Extends (fuel : Nat) : Prop :=
  ∀ {input v rest}, parseValue fuel input = some (v, rest) → Ended v rest →
    ∀ q, ∀ more ≥ fuel, parseValue more (input ++ q) = some (v, rest ++ q)

def ExtendsItems (fuel : Nat) : Prop :=
  ∀ {input items rest}, parseItems fuel input = some (items, rest) →
    ∀ q, ∀ more ≥ fuel, parseItems more (input ++ q) = some (items, rest ++ q)

def ExtendsMembers (fuel : Nat) : Prop :=
  ∀ {input members rest}, parseMembers fuel input = some (members, rest) →
    ∀ q, ∀ more ≥ fuel, parseMembers more (input ++ q) = some (members, rest ++ q)

/-- A value has a first byte, and the reader goes by that byte. -/
theorem parseValue_lead (read : parseValue fuel input = some (v, rest)) :
    ∃ d tail, skipSpace input = d :: tail := by
  cases fuel with
  | zero => cases read
  | succ fuel =>
    cases lead : skipSpace input with
    | nil =>
      have nothing : ∀ c, expect c input = none := by
        intro c
        rw [expect, lead]
      have word : parseWord [] = none := rfl
      have number : parseNumber [] = none := rfl
      rw [parseValue] at read
      simp only [nothing, lead, word, number] at read
      cases read
    | cons d tail => exact ⟨d, tail, rfl⟩

theorem ne_nil_of_lead (lead : skipSpace input = d :: tail) : input ≠ [] := by
  rintro rfl
  cases lead

theorem parseItems_lead {items : List Value} (read : parseItems fuel input = some (items, rest)) :
    ∃ d tail, skipSpace input = d :: tail := by
  cases fuel with
  | zero => cases read
  | succ fuel =>
    rw [parseItems] at read
    split at read
    · rename_i after closed
      exact ⟨_, _, lead_of_expect closed⟩
    · obtain ⟨after, comma, _⟩ := Option.bind_eq_some_iff.mp read
      exact ⟨_, _, lead_of_expect comma⟩

theorem parseMembers_lead {members : List (Bytes × Value)}
    (read : parseMembers fuel input = some (members, rest)) :
    ∃ d tail, skipSpace input = d :: tail := by
  cases fuel with
  | zero => cases read
  | succ fuel =>
    rw [parseMembers] at read
    split at read
    · rename_i after closed
      exact ⟨_, _, lead_of_expect closed⟩
    · obtain ⟨after, comma, _⟩ := Option.bind_eq_some_iff.mp read
      exact ⟨_, _, lead_of_expect comma⟩

theorem parseMember_lead {m : Bytes × Value}
    (read : parseMember (parseValue fuel) input = some (m, rest)) :
    ∃ tail, skipSpace input = 34 :: tail := by
  obtain ⟨opened, quoteMark, _⟩ := Option.bind_eq_some_iff.mp read
  exact ⟨opened, lead_of_expect quoteMark⟩

theorem parseMember_append {k : Bytes} (value : Extends fuel)
    (read : parseMember (parseValue fuel) input = some ((k, v), rest)) (ended : rest ≠ [])
    (q : Bytes) (more : Nat) (enough : fuel ≤ more) :
    parseMember (parseValue more) (input ++ q) = some ((k, v), rest ++ q) := by
  unfold parseMember at read ⊢
  obtain ⟨opened, quoteMark, read⟩ := Option.bind_eq_some_iff.mp read
  obtain ⟨⟨key, afterKey⟩, quoted, read⟩ := Option.bind_eq_some_iff.mp read
  obtain ⟨afterColon, colon, read⟩ := Option.bind_eq_some_iff.mp read
  obtain ⟨⟨v', afterValue⟩, inner, same⟩ := Option.bind_eq_some_iff.mp read
  cases same
  simp only [expect_append quoteMark, unquote_append quoted, expect_append colon,
    value inner (.inl ended) q more enough, Option.bind_eq_bind, Option.bind_some]

private theorem extendsItems_succ (value : Extends fuel) (items : ExtendsItems fuel) :
    ExtendsItems (fuel + 1) := by
  intro input vs rest read q more enough
  obtain ⟨more, rfl⟩ : ∃ n, more = n + 1 := ⟨more - 1, by omega⟩
  obtain ⟨d, tail, lead⟩ := parseItems_lead read
  rw [parseItems] at read ⊢
  split at read
  · rename_i after closed
    cases read
    simp only [expect_append closed]
  · rename_i goesOn
    obtain ⟨afterComma, comma, read⟩ := Option.bind_eq_some_iff.mp read
    obtain ⟨⟨v, afterValue⟩, first, read⟩ := Option.bind_eq_some_iff.mp read
    obtain ⟨⟨others, afterItems⟩, following, same⟩ := Option.bind_eq_some_iff.mp read
    cases same
    obtain ⟨_, _, leadItems⟩ := parseItems_lead following
    have ended : Ended v afterValue := .inl (ne_nil_of_lead leadItems)
    simp only [expect_append_none lead goesOn, expect_append comma,
      value first ended q more (by omega), items following q more (by omega),
      Option.bind_eq_bind, Option.bind_some]

private theorem extendsMembers_succ (value : Extends fuel) (members : ExtendsMembers fuel) :
    ExtendsMembers (fuel + 1) := by
  intro input ms rest read q more enough
  obtain ⟨more, rfl⟩ : ∃ n, more = n + 1 := ⟨more - 1, by omega⟩
  obtain ⟨d, tail, lead⟩ := parseMembers_lead read
  rw [parseMembers] at read ⊢
  split at read
  · rename_i after closed
    cases read
    simp only [expect_append closed]
  · rename_i goesOn
    obtain ⟨afterComma, comma, read⟩ := Option.bind_eq_some_iff.mp read
    obtain ⟨⟨m, afterMember⟩, first, read⟩ := Option.bind_eq_some_iff.mp read
    obtain ⟨⟨others, afterMembers⟩, following, same⟩ := Option.bind_eq_some_iff.mp read
    cases same
    obtain ⟨_, _, leadMembers⟩ := parseMembers_lead following
    have member := parseMember_append value first (ne_nil_of_lead leadMembers) q more
      (by omega)
    simp only [expect_append_none lead goesOn, expect_append comma, member,
      members following q more (by omega), Option.bind_eq_bind, Option.bind_some]

private theorem extends_succ (value : Extends fuel) (items : ExtendsItems fuel)
    (members : ExtendsMembers fuel) : Extends (fuel + 1) := by
  intro input v rest read ended q more enough
  obtain ⟨more, rfl⟩ : ∃ n, more = n + 1 := ⟨more - 1, by omega⟩
  obtain ⟨d, tail, lead⟩ := parseValue_lead read
  have leadMore := skipSpace_append lead q
  rw [parseValue] at read ⊢
  split at read
  · rename_i after opened
    obtain ⟨⟨s, afterString⟩, quoted, same⟩ := Option.map_eq_some_iff.mp read
    cases same
    simp only [expect_append opened, unquote_append quoted, Option.map_some]
  · rename_i notString
    simp only [expect_append_none lead notString]
    split at read
    · rename_i after opened
      simp only [expect_append opened]
      split at read
      · rename_i afterEmpty closed
        cases read
        simp only [expect_append closed]
      · rename_i filled
        obtain ⟨⟨w, afterValue⟩, first, read⟩ := Option.bind_eq_some_iff.mp read
        obtain ⟨⟨others, afterItems⟩, following, same⟩ := Option.bind_eq_some_iff.mp read
        cases same
        obtain ⟨_, _, leadItems⟩ := parseItems_lead following
        have ended : Ended w afterValue := .inl (ne_nil_of_lead leadItems)
        obtain ⟨_, _, leadFirst⟩ := parseValue_lead first
        simp only [expect_append_none leadFirst filled, value first ended q more (by omega),
          items following q more (by omega), Option.bind_eq_bind, Option.bind_some]
    · rename_i notArray
      simp only [expect_append_none lead notArray]
      split at read
      · rename_i after opened
        simp only [expect_append opened]
        split at read
        · rename_i afterEmpty closed
          cases read
          simp only [expect_append closed]
        · rename_i filled
          obtain ⟨⟨m, afterMember⟩, first, read⟩ := Option.bind_eq_some_iff.mp read
          obtain ⟨⟨others, afterMembers⟩, following, same⟩ := Option.bind_eq_some_iff.mp read
          cases same
          obtain ⟨_, _, leadMembers⟩ := parseMembers_lead following
          have member := parseMember_append value first (ne_nil_of_lead leadMembers) q more
            (by omega)
          obtain ⟨_, leadFirst⟩ := parseMember_lead first
          simp only [expect_append_none leadFirst filled, member,
            members following q more (by omega), Option.bind_eq_bind, Option.bind_some]
      · rename_i notObject
        simp only [expect_append_none lead notObject, lead, leadMore] at read ⊢
        split at read
        · rename_i word isWord
          cases read
          simp only [← List.cons_append, parseWord_append isWord]
        · obtain ⟨n, rfl⟩ := number_of_parseNumber read
          have goesOn : rest ≠ [] := ended.resolve_right fun other => other n rfl
          simp only [parseWord_of_number read, parseNumber_append read goesOn]

/-- Whatever the fuel, what has ended is read the same way in front of more text. -/
theorem extends_all (fuel : Nat) : Extends fuel ∧ ExtendsItems fuel ∧ ExtendsMembers fuel := by
  induction fuel with
  | zero => exact ⟨nofun, nofun, nofun⟩
  | succ fuel ih =>
    obtain ⟨value, items, members⟩ := ih
    exact ⟨extends_succ value items members, extendsItems_succ value items,
      extendsMembers_succ value members⟩

/-- Where a text is an object and a longer one is JSON too, only space has been added. -/
theorem space_of_parse_append {members : List (Bytes × Value)} {q : Bytes}
    (short : parse input = some (.object members)) (long : parse (input ++ q) = some v) :
    skipSpace q = [] := by
  unfold parse at short long
  split at short
  · rename_i object rest read
    split at short
    · rename_i space
      cases short
      have ended : Ended (.object members) rest := .inr nofun
      have extended := (extends_all _).1 read ended q ((input ++ q).length + 1) (by simp)
      rw [extended] at long
      split at long
      · rename_i v' rest' same
        cases same
        split at long
        · rename_i nothing
          unfold skipSpace at space nothing ⊢
          rw [List.dropWhile_append, space] at nothing
          exact nothing
        · cases long
      · cases long
    · cases short
  · cases short

end Miniweb.Lib.Json
