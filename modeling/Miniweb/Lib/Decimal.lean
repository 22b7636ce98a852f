import Miniweb.Lib.CString

/-! Decimal numbers as `printf` writes them, and that reading them back gives the
number. -/
namespace Miniweb.Lib.Decimal

open Miniweb.Lib.CString

/-- The byte of a digit. -/
def digit (d : Nat) : UInt8 := UInt8.ofNat (48 + d)

/-- The digits of `n`, with enough fuel. -/
def digits : Nat → Nat → Bytes
  | 0, _ => []
  | fuel + 1, n => if n < 10 then [digit n] else digits fuel (n / 10) ++ [digit (n % 10)]

/-- `%u`, `%zu` and `%llu`. -/
def decimalText (n : Nat) : Bytes := digits (n + 1) n

/-- `%d` and `%lld`. -/
def signedText (n : Int) : Bytes :=
  if n < 0 then 45 :: decimalText n.natAbs else decimalText n.natAbs

variable {n d fuel : Nat}

theorem toNat_digit (below : d < 10) : (digit d).toNat = 48 + d := by
  have bound : 48 + d < 2 ^ 8 := by omega
  rw [digit, UInt8.toNat_ofNat_of_lt' bound]

theorem isdigit_digit (below : d < 10) : isdigit (digit d) = true := by
  have value := toNat_digit below
  simp only [isdigit, Bool.and_eq_true, decide_eq_true_eq, UInt8.le_iff_toNat_le, value]
  change 48 ≤ 48 + d ∧ 48 + d ≤ 57
  omega

theorem digit_of_isdigit {c : UInt8} (isDigit : isdigit c = true) : ∃ d < 10, c = digit d := by
  simp only [isdigit, Bool.and_eq_true, decide_eq_true_eq, UInt8.le_iff_toNat_le] at isDigit
  obtain ⟨low, high⟩ := isDigit
  change 48 ≤ c.toNat at low
  change c.toNat ≤ 57 at high
  refine ⟨c.toNat - 48, by omega, ?_⟩
  apply UInt8.toNat_inj.mp
  rw [toNat_digit (by omega)]
  omega

theorem digit_ne_zero (below : d < 10) (positive : 0 < d) : digit d ≠ 48 := by
  intro same
  have value := toNat_digit below
  rw [same] at value
  change 48 = 48 + d at value
  omega

theorem decimal_concat (text : Bytes) (c : UInt8) :
    decimal (text ++ [c]) = decimal text * 10 + (c.toNat - 48) := by
  simp [decimal, List.foldl_append]

theorem decimal_digits (enough : n < fuel) : decimal (digits fuel n) = n := by
  induction fuel generalizing n with
  | zero => omega
  | succ fuel ih =>
    unfold digits
    split
    · rename_i small
      have := toNat_digit small
      simp [decimal]
      omega
    · rw [decimal_concat, ih (by omega), toNat_digit (by omega)]
      omega

@[simp] theorem decimal_decimalText (n : Nat) : decimal (decimalText n) = n :=
  decimal_digits (Nat.lt_succ_self n)

theorem isdigit_of_mem_digits {c : UInt8} (member : c ∈ digits fuel n) : isdigit c = true := by
  induction fuel generalizing n with
  | zero => cases member
  | succ fuel ih =>
    unfold digits at member
    split at member
    · rename_i small
      cases List.mem_singleton.mp member
      exact isdigit_digit small
    · rcases List.mem_append.mp member with earlier | last
      · exact ih earlier
      · cases List.mem_singleton.mp last
        exact isdigit_digit (by omega)

theorem isdigit_of_mem_decimalText {c : UInt8} (member : c ∈ decimalText n) :
    isdigit c = true :=
  isdigit_of_mem_digits member

/-- Nothing but digits and a sign is in the text of a number. -/
theorem not_mem_decimalText {c : UInt8} (other : isdigit c = false) : c ∉ decimalText n := by
  intro member
  rw [isdigit_of_mem_decimalText member] at other
  cases other

theorem not_mem_signedText {c : UInt8} {n : Int} (other : isdigit c = false) (noSign : c ≠ 45) :
    c ∉ signedText n := by
  unfold signedText
  split
  · exact List.not_mem_cons_of_ne_of_not_mem noSign (not_mem_decimalText other)
  · exact not_mem_decimalText other

theorem decimalText_ne_nil (n : Nat) : decimalText n ≠ [] := by
  unfold decimalText digits
  split <;> simp

/-- A positive number has no leading zero. -/
private theorem head_digits (enough : n < fuel) (positive : 0 < n) :
    ∃ c, (digits fuel n).head? = some c ∧ c ≠ 48 := by
  induction fuel generalizing n with
  | zero => omega
  | succ fuel ih =>
    unfold digits
    split
    · rename_i small
      exact ⟨digit n, rfl, digit_ne_zero small positive⟩
    · obtain ⟨c, first, nonzero⟩ := ih (n := n / 10) (by omega) (by omega)
      refine ⟨c, ?_, nonzero⟩
      rw [List.head?_append, first]
      rfl

theorem decimalText_noLeadingZero (n : Nat) :
    ¬ (1 < (decimalText n).length ∧ (decimalText n).head? = some 48) := by
  rintro ⟨long, zero⟩
  rcases Nat.eq_zero_or_pos n with rfl | positive
  · exact absurd long (by decide)
  · obtain ⟨c, first, nonzero⟩ := head_digits (Nat.lt_succ_self n) positive
    rw [decimalText, first] at zero
    exact nonzero (Option.some.inj zero)

end Miniweb.Lib.Decimal
