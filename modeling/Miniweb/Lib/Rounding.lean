import Miniweb.Lib.Decimal

/-! Rounding to nearest with ties to even: a natural number as a binary32, and a fraction with
one decimal as `printf` writes it. -/
namespace Miniweb.Lib.Rounding

open Miniweb.Lib.CString Miniweb.Lib.Decimal

/-- `n / d`, rounded to the nearest, from the middle to the even one. -/
def divEven (n d : Nat) : Nat :=
  let q := n / d
  let r := n % d
  if d < 2 * r || (2 * r = d && q % 2 = 1) then q + 1 else q

/-- The binary32 nearest to `n`: 24 significant bits of it. -/
def roundBinary32 (n : Nat) : Nat :=
  let unit := 2 ^ (Nat.log2 n + 1 - 24)
  divEven n unit * unit

/-- `%.1f` of `n / d`. -/
def oneDecimal (n d : Nat) : Bytes :=
  let tenths := divEven (10 * n) d
  decimalText (tenths / 10) ++ [46, digit (tenths % 10)]

/-- `%.2f` of `n / d`. -/
def twoDecimals (n d : Nat) : Bytes :=
  let hundredths := divEven (100 * n) d
  decimalText (hundredths / 100) ++ [46, digit (hundredths / 10 % 10), digit (hundredths % 10)]

variable {n d k : Nat}

theorem divEven_le (n d : Nat) : divEven n d ≤ n / d + 1 := by
  unfold divEven
  simp only
  split <;> omega

/-- Rounding does not double a number. -/
theorem roundBinary32_le (n : Nat) : roundBinary32 n ≤ 2 * n := by
  rw [roundBinary32]
  by_cases small : Nat.log2 n + 1 ≤ 24
  · rw [Nat.sub_eq_zero_of_le small, Nat.pow_zero, Nat.mul_one]
    have whole : divEven n 1 = n := by
      simp [divEven]
      omega
    omega
  · have positive : n ≠ 0 := by
      rintro rfl
      simp at small
    have below : 2 ^ (Nat.log2 n + 1 - 24) ≤ n :=
      (Nat.pow_le_pow_right (by omega) (by omega)).trans (Nat.log2_self_le positive)
    have up := Nat.mul_le_mul_right (2 ^ (Nat.log2 n + 1 - 24))
      (divEven_le n (2 ^ (Nat.log2 n + 1 - 24)))
    have down := Nat.div_mul_le_self n (2 ^ (Nat.log2 n + 1 - 24))
    rw [Nat.add_mul, Nat.one_mul] at up
    omega

/-- A number below a power of ten has no more digits. -/
theorem length_digits_le {fuel : Nat} (below : n < 10 ^ (k + 1)) : (digits fuel n).length ≤ k + 1 := by
  induction fuel generalizing n k with
  | zero => exact Nat.zero_le _
  | succ fuel ih =>
    unfold digits
    split
    · exact Nat.succ_le_succ (Nat.zero_le k)
    · rename_i large
      cases k with
      | zero => omega
      | succ k =>
        have fewer := ih (n := n / 10) (k := k) (by rw [Nat.pow_succ] at below; omega)
        rw [List.length_append, List.length_singleton]
        omega

theorem length_decimalText_le (below : n < 10 ^ (k + 1)) : (decimalText n).length ≤ k + 1 :=
  length_digits_le below

/-- A number of 64 bits with its sign. -/
theorem length_signedText_int64 (n : Int64) : (signedText n.toInt).length ≤ 20 := by
  have low := n.le_toInt
  have high := n.toInt_lt
  have number := length_decimalText_le (n := n.toInt.natAbs) (k := 18) (by omega)
  rw [signedText]
  split
  · rw [List.length_cons]
    omega
  · omega

theorem length_oneDecimal_le (below : n / d + 1 < 10 ^ (k + 1)) (positive : 0 < d) :
    (oneDecimal n d).length ≤ k + 3 := by
  have tenths : divEven (10 * n) d / 10 < 10 ^ (k + 1) := by
    have up := divEven_le (10 * n) d
    have scaled : 10 * n / d ≤ 10 * (n / d) + 9 := by
      have split := Nat.div_add_mod n d
      have rest := Nat.mod_lt n positive
      apply Nat.le_of_lt_succ
      rw [Nat.div_lt_iff_lt_mul positive]
      nlinarith
    omega
  have digits := length_decimalText_le tenths
  rw [oneDecimal, List.length_append]
  simp only [List.length_cons, List.length_nil]
  omega

theorem length_twoDecimals_le (below : n / d + 1 < 10 ^ (k + 1)) (positive : 0 < d) :
    (twoDecimals n d).length ≤ k + 4 := by
  have hundredths : divEven (100 * n) d / 100 < 10 ^ (k + 1) := by
    have up := divEven_le (100 * n) d
    have scaled : 100 * n / d ≤ 100 * (n / d) + 99 := by
      have split := Nat.div_add_mod n d
      have rest := Nat.mod_lt n positive
      apply Nat.le_of_lt_succ
      rw [Nat.div_lt_iff_lt_mul positive]
      nlinarith
    omega
  have digits := length_decimalText_le hundredths
  rw [twoDecimals, List.length_append]
  simp only [List.length_cons, List.length_nil]
  omega

end Miniweb.Lib.Rounding
