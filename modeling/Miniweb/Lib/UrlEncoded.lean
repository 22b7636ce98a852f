import Miniweb.Lib.CString

/-! Percent-encoded text and the entries of a query string. A text is an encoding of a value
when each byte is written as itself, as a percent sign with two hexadecimal digits or, for a
space, as a plus sign; every decoder that agrees with this on well-formed text gives the
value back, whatever it does with the rest. -/
namespace Miniweb.Lib.UrlEncoded

open Miniweb.Lib.CString

/-- The value of a hexadecimal digit. -/
def digitValue (c : UInt8) : UInt8 :=
  if isdigit c then c - 48 else if 97 ≤ c then c - 97 + 10 else c - 65 + 10

/-- The byte that two hexadecimal digits write. -/
def escaped (a b : UInt8) : UInt8 := digitValue a * 16 + digitValue b

/-- The decoding that leaves a percent sign without two digits behind it as it is. -/
def decode : Bytes → Bytes
  | [] => []
  | c :: rest =>
    if c = 43 then 32 :: decode rest
    else
      match rest with
      | a :: b :: rest' =>
        if c = 37 && isxdigit a && isxdigit b then escaped a b :: decode rest'
        else c :: decode (a :: b :: rest')
      | rest => c :: decode rest

/-- The text is an encoding of the value. -/
inductive Encodes : Bytes → Bytes → Prop where
  | nil : Encodes [] []
  | plain {c : UInt8} {text value : Bytes} (notEscape : c ≠ 37) (notPlus : c ≠ 43)
      (rest : Encodes text value) : Encodes (c :: text) (c :: value)
  | plus {text value : Bytes} (rest : Encodes text value) : Encodes (43 :: text) (32 :: value)
  | escape {a b : UInt8} {text value : Bytes} (high : isxdigit a = true) (low : isxdigit b = true)
      (rest : Encodes text value) : Encodes (37 :: a :: b :: text) (escaped a b :: value)

variable {text value rest key : Bytes} {a b c : UInt8}

theorem decode_plus (rest : Bytes) : decode (43 :: rest) = 32 :: decode rest := by
  match rest with
  | [] => simp [decode]
  | [a] => simp [decode]
  | a :: b :: rest => rw [decode, if_pos rfl]

theorem decode_escape (high : isxdigit a = true) (low : isxdigit b = true) (rest : Bytes) :
    decode (37 :: a :: b :: rest) = escaped a b :: decode rest := by
  simp [decode, high, low]

/-- A byte that starts nothing stands for itself. -/
theorem decode_plain (notEscape : c ≠ 37) (notPlus : c ≠ 43) (rest : Bytes) :
    decode (c :: rest) = c :: decode rest := by
  match rest with
  | [] => simp [decode, notPlus]
  | [a] => simp [decode, notPlus]
  | a :: b :: rest => rw [decode, if_neg notPlus]; simp [notEscape]

/-- A property of every text, along the rounds of the decoding. -/
@[elab_as_elim]
theorem decode_induction {P : Bytes → Prop} (raw : Bytes) (empty : P [])
    (plus : ∀ rest, P rest → P (43 :: rest))
    (escape : ∀ c a b rest, c ≠ 43 → (c = 37 && isxdigit a && isxdigit b) = true →
      P rest → P (c :: a :: b :: rest))
    (plain : ∀ c a b rest, c ≠ 43 → ¬ (c = 37 && isxdigit a && isxdigit b) = true →
      P (a :: b :: rest) → P (c :: a :: b :: rest))
    (short : ∀ c rest, c ≠ 43 → (∀ a b rest', rest = a :: b :: rest' → False) →
      P rest → P (c :: rest)) : P raw := by
  induction same : raw.length using Nat.strong_induction_on generalizing raw with
  | _ n ih =>
    subst same
    rcases raw with _ | ⟨c, rest⟩
    · exact empty
    · have next : P rest := ih _ (Nat.lt_succ_self _) rest rfl
      by_cases isPlus : c = 43
      · rw [isPlus]
        exact plus rest next
      · rcases rest with _ | ⟨a, _ | ⟨b, rest⟩⟩
        · exact short c [] isPlus (by simp) next
        · exact short c [a] isPlus (by simp) next
        · by_cases hex : (c = 37 && isxdigit a && isxdigit b) = true
          · exact escape c a b rest isPlus hex (ih _ (by simp; omega) rest rfl)
          · exact plain c a b rest isPlus hex next

/-- A well-formed text is decoded to what it encodes. -/
theorem decode_of_encodes (encodes : Encodes text value) : decode text = value := by
  induction encodes with
  | nil => rfl
  | plain notEscape notPlus _ ih => rw [decode_plain notEscape notPlus, ih]
  | plus _ ih => rw [decode_plus, ih]
  | escape high low _ ih => rw [decode_escape high low, ih]

/-! ## Entries -/

/-- The value of an entry with this name; the name ends at the first `=`. -/
def entryValue (key entry : Bytes) : Option Bytes :=
  (strchr 61 entry).bind fun eq => if entry.take eq = key then some (entry.drop (eq + 1)) else none

/-- The value of the first entry with this name. -/
def lookup (key query : Bytes) : Option Bytes := (query.splitOn 38).findSome? (entryValue key)

theorem lookup_nil : lookup key [] = none := rfl

/-- The entries are read one after another. -/
theorem lookup_append_cons {entry query : Bytes} (clean : 38 ∉ entry) :
    lookup key (entry ++ 38 :: query) = (entryValue key entry).or (lookup key query) := by
  rw [lookup, List.splitOn_append_cons_self_of_not_mem clean, List.findSome?_cons]
  cases entryValue key entry with
  | none => rfl
  | some value => rfl

theorem lookup_of_not_mem {entry : Bytes} (clean : 38 ∉ entry) :
    lookup key entry = entryValue key entry := by
  rw [lookup, List.splitOn_eq_singleton clean]
  cases found : entryValue key entry with
  | none => simp [found]
  | some value => simp [found]

end Miniweb.Lib.UrlEncoded
