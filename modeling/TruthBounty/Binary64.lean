import Mathlib.Data.Int.Log
import Mathlib.Tactic.Linarith
import TruthBounty.JsBuiltins

namespace TruthBounty

/-- `x` rounded to the nearest integer, a half to the even neighbour, as IEEE 754 rounds. -/
def roundHalfEven (x : ℚ) : ℤ :=
  if x - ⌊x⌋ < 1 / 2 then ⌊x⌋
  else if 1 / 2 < x - ⌊x⌋ then ⌊x⌋ + 1
  else if ⌊x⌋ % 2 = 0 then ⌊x⌋ else ⌊x⌋ + 1

/-- The exponent of the last significand bit of the binary64 values around `q`: 52 below its
leading bit, and at least the subnormal one, `-1074`. -/
def binaryUnit (q : ℚ) : ℤ := max (Int.log 2 |q| - 52) (-1074)

/-- `q` rounded to the nearest binary64 value, a tie to the even significand, with no
largest exponent. -/
def roundBinary (q : ℚ) : ℚ := roundHalfEven (q / 2 ^ binaryUnit q) * 2 ^ binaryUnit q

/-- A binary64 value with no largest exponent: a significand below `2^53` in magnitude times
a power of two from `2^-1074` on. -/
def IsBinary (q : ℚ) : Prop := ∃ m k : ℤ, |m| < 2 ^ 53 ∧ -1074 ≤ k ∧ q = m * 2 ^ k

/-- A finite binary64 value. -/
def IsDouble (q : ℚ) : Prop := IsBinary q ∧ |q| < 2 ^ 1024

/-- The number JavaScript stores for the exact result of an operation: the nearest double,
or the infinity of its sign once that reaches `2^1024`. `NaN` and the infinities stay. -/
def JsNumber.toDouble : JsNumber → JsNumber
  | .finite q =>
    if 2 ^ 1024 ≤ |roundBinary q| then (if 0 < q then .posInfinity else .negInfinity)
    else .finite (roundBinary q)
  | x => x

/-- JavaScript's `<` on numbers. Every comparison with `NaN` is false. -/
def JsNumber.blt : JsNumber → JsNumber → Bool
  | .finite a, .finite b => decide (a < b)
  | .nan, _ | _, .nan => false
  | .negInfinity, .negInfinity | .posInfinity, .posInfinity => false
  | .negInfinity, _ | _, .posInfinity => true
  | _, _ => false

/-- JavaScript's `===` on numbers: `NaN` equals nothing. The model has no negative zero. -/
def JsNumber.strictEq : JsNumber → JsNumber → Bool
  | .nan, _ | _, .nan => false
  | x, y => decide (x = y)

/-- `Math.abs`. -/
def JsNumber.abs : JsNumber → JsNumber
  | .finite a => .finite |a|
  | .nan => .nan
  | _ => .posInfinity

/-- `x * y` in exact arithmetic: zero times an infinity is `NaN`, otherwise an infinity takes
the sign of the product. -/
def JsNumber.mul : JsNumber → JsNumber → JsNumber
  | .finite a, .finite b => .finite (a * b)
  | .nan, _ | _, .nan => .nan
  | .finite a, x | x, .finite a => if a = 0 then .nan else if 0 < a then x else x.neg
  | .posInfinity, y => y
  | .negInfinity, y => y.neg

/-- `x / y` in exact arithmetic: a non-zero number over zero is the infinity of its sign,
`0 / 0` and an infinity over an infinity are `NaN`, and a finite number over an infinity is
zero. -/
def JsNumber.div : JsNumber → JsNumber → JsNumber
  | .finite a, .finite b =>
    if b = 0 then (if a = 0 then .nan else if 0 < a then .posInfinity else .negInfinity)
    else .finite (a / b)
  | .nan, _ | _, .nan => .nan
  | .finite _, _ => .finite 0
  | .posInfinity, .finite b => if b < 0 then .negInfinity else .posInfinity
  | .negInfinity, .finite b => if b < 0 then .posInfinity else .negInfinity
  | _, _ => .nan

/-- `Number(x.toFixed(digits))`: `NaN` and the infinities print as themselves, and the digits
of a finite number read back as the nearest double. -/
def numberToFixed (digits : ℕ) : JsNumber → JsNumber
  | .finite x => (JsNumber.finite (toFixed digits x)).toDouble
  | x => x

section Rounding

theorem roundHalfEven_cases (x : ℚ) :
    (roundHalfEven x = ⌊x⌋ ∧ x - ⌊x⌋ ≤ 1 / 2) ∨ (roundHalfEven x = ⌊x⌋ + 1 ∧ 1 / 2 ≤ x - ⌊x⌋) := by
  unfold roundHalfEven
  split_ifs with below above
  · exact .inl ⟨rfl, below.le⟩
  · exact .inr ⟨rfl, above.le⟩
  · exact .inl ⟨rfl, not_lt.mp above⟩
  · exact .inr ⟨rfl, not_lt.mp below⟩

/-- No integer is nearer to `x` than its rounding. -/
theorem roundHalfEven_nearest (x : ℚ) (z : ℤ) : |x - roundHalfEven x| ≤ |x - z| := by
  have lower := Int.floor_le x
  have upper := Int.lt_floor_add_one x
  rcases le_or_lt z ⌊x⌋ with below | above
  · have cast : (z : ℚ) ≤ ⌊x⌋ := Int.cast_le.mpr below
    refine (abs_le.mpr ?_).trans (le_abs_self _)
    rcases roundHalfEven_cases x with ⟨same, half⟩ | ⟨same, half⟩ <;> rw [same] <;> push_cast <;>
      constructor <;> linarith
  · have cast : (⌊x⌋ : ℚ) + 1 ≤ z := by exact_mod_cast Int.add_one_le_iff.mpr above
    refine (abs_le.mpr ?_).trans (abs_sub_comm (z : ℚ) x ▸ le_abs_self _)
    rcases roundHalfEven_cases x with ⟨same, half⟩ | ⟨same, half⟩ <;> rw [same] <;> push_cast <;>
      constructor <;> linarith

/-- A half goes to the even neighbour on both sides of zero, so rounding is odd. -/
theorem roundHalfEven_neg (x : ℚ) : roundHalfEven (-x) = -roundHalfEven x := by
  have lower := Int.floor_le x
  have upper := Int.lt_floor_add_one x
  rcases lower.eq_or_lt with whole | fraction
  · have floorNeg : ⌊-x⌋ = -⌊x⌋ :=
      Int.floor_eq_iff.mpr ⟨by push_cast; linarith, by push_cast; linarith⟩
    unfold roundHalfEven
    rw [floorNeg, if_pos (by push_cast; linarith), if_pos (by linarith)]
  · have floorNeg : ⌊-x⌋ = -⌊x⌋ - 1 :=
      Int.floor_eq_iff.mpr ⟨by push_cast; linarith, by push_cast; linarith⟩
    unfold roundHalfEven
    rw [floorNeg]
    push_cast
    split_ifs <;> first | omega | (exfalso; linarith)

end Rounding

section Grid

theorem two_zpow_pos (k : ℤ) : (0 : ℚ) < 2 ^ k := zpow_pos (by norm_num) k

theorem binaryUnit_ge (q : ℚ) : -1074 ≤ binaryUnit q := le_max_right _ _

theorem binaryUnit_neg (q : ℚ) : binaryUnit (-q) = binaryUnit q := by
  simp [binaryUnit]

/-- Every value lies below `2^53` units of its spacing. -/
theorem abs_lt_binaryUnit (q : ℚ) : |q| < 2 ^ (binaryUnit q + 53) := by
  have bound := Int.lt_zpow_succ_log_self (by norm_num : 1 < 2) |q|
  rw [Nat.cast_ofNat] at bound
  exact bound.trans_le (zpow_le_zpow_right₀ (by norm_num) (by unfold binaryUnit; omega))

/-- Above the subnormal range a value has at least `2^52` units of its spacing. -/
theorem binaryUnit_le_abs {q : ℚ} (nonzero : q ≠ 0) (normal : -1074 < binaryUnit q) :
    2 ^ (binaryUnit q + 52) ≤ |q| := by
  have unit : binaryUnit q + 52 = Int.log 2 |q| := by unfold binaryUnit at *; omega
  have bound := Int.zpow_log_le_self (by norm_num : 1 < 2) (abs_pos.mpr nonzero)
  rw [Nat.cast_ofNat] at bound
  rwa [unit]

/-- Against a spacing `2^u`, a binary value is a multiple of it, or lies below `2^(u + 52)`
on a finer spacing. -/
theorem IsBinary.grid {d : ℚ} (binary : IsBinary d) (u : ℤ) :
    (∃ n : ℤ, d = n * 2 ^ u) ∨ (-1074 < u ∧ |d| < 2 ^ (u + 52)) := by
  obtain ⟨m, k, small, least, rfl⟩ := binary
  rcases le_or_lt u k with coarse | fine
  · refine .inl ⟨m * 2 ^ (k - u).toNat, ?_⟩
    push_cast
    rw [mul_assoc, ← zpow_natCast, ← zpow_add₀ two_ne_zero, Int.toNat_of_nonneg (by omega),
      sub_add_cancel]
  · have significand : |(m : ℚ)| < 2 ^ 53 := by exact_mod_cast small
    refine .inr ⟨by omega, ?_⟩
    calc |(m : ℚ) * 2 ^ k| = |(m : ℚ)| * 2 ^ k := by rw [abs_mul, abs_of_pos (two_zpow_pos k)]
      _ < 2 ^ 53 * 2 ^ k := mul_lt_mul_of_pos_right significand (two_zpow_pos k)
      _ = 2 ^ (k + 53) := by rw [zpow_add₀ two_ne_zero, mul_comm]; norm_num
      _ ≤ 2 ^ (u + 52) := zpow_le_zpow_right₀ (by norm_num) (by omega)

theorem isBinary_intCast {n : ℤ} (small : |n| < 2 ^ 53) : IsBinary n :=
  ⟨n, 0, small, by norm_num, by simp⟩

end Grid

section Nearest

/-- `roundBinary q` is a binary value no farther from `q` than any other. -/
theorem roundBinary_nearest (q : ℚ) {d : ℚ} (binary : IsBinary d) :
    |q - roundBinary q| ≤ |q - d| := by
  have scale := two_zpow_pos (binaryUnit q)
  have onGrid (n : ℤ) : |q - roundBinary q| ≤ |q - n * 2 ^ binaryUnit q| := by
    have scaled (z : ℚ) : q - z * 2 ^ binaryUnit q = (q / 2 ^ binaryUnit q - z) * 2 ^ binaryUnit q := by
      rw [sub_mul, div_mul_cancel₀ _ scale.ne']
    rw [roundBinary, scaled, scaled, abs_mul, abs_mul, abs_of_pos scale]
    exact mul_le_mul_of_nonneg_right (roundHalfEven_nearest _ n) scale.le
  rcases binary.grid (binaryUnit q) with ⟨n, rfl⟩ | ⟨normal, below⟩
  · exact onGrid n
  rcases eq_or_ne q 0 with rfl | nonzero
  · have zero : roundHalfEven 0 = 0 := by simp [roundHalfEven]
    simp [roundBinary, zero]
  have above := binaryUnit_le_abs nonzero normal
  have corner : |q - ((if 0 < q then 2 ^ 52 else -2 ^ 52 : ℤ) : ℚ) * 2 ^ binaryUnit q| =
      |q| - 2 ^ (binaryUnit q + 52) := by
    rw [zpow_add₀ two_ne_zero] at above ⊢
    split_ifs with positive
    · rw [abs_of_pos positive] at above ⊢
      push_cast
      rw [abs_of_nonneg (by norm_num at above ⊢; linarith)]
      norm_num; ring
    · rw [abs_of_neg (lt_of_le_of_ne (not_lt.mp positive) nonzero)] at above ⊢
      push_cast
      rw [abs_of_nonpos (by norm_num at above ⊢; linarith)]
      norm_num; ring
  calc |q - roundBinary q| ≤ |q| - 2 ^ (binaryUnit q + 52) := (onGrid _).trans_eq corner
    _ ≤ |q| - |d| := by linarith
    _ ≤ |q - d| := abs_sub_abs_le_abs_sub q d

/-- The rounding lands on a binary value: a significand of `2^53` is `2^52` one exponent up. -/
theorem roundBinary_isBinary (q : ℚ) : IsBinary (roundBinary q) := by
  have scale := two_zpow_pos (binaryUnit q)
  have scaled : |q / 2 ^ binaryUnit q| < 2 ^ 53 := by
    rw [abs_div, abs_of_pos scale, div_lt_iff₀ scale, ← zpow_natCast, ← zpow_add₀ two_ne_zero,
      add_comm]
    exact abs_lt_binaryUnit q
  obtain ⟨below, above⟩ := abs_lt.mp scaled
  have up := (le_abs_self _).trans ((abs_sub_comm _ _).trans_le
    (roundHalfEven_nearest (q / 2 ^ binaryUnit q) (2 ^ 53)))
  have down := (le_abs_self _).trans (roundHalfEven_nearest (q / 2 ^ binaryUnit q) (-2 ^ 53))
  push_cast at up down
  rw [abs_of_neg (by linarith)] at up
  rw [abs_of_pos (by linarith)] at down
  have upper : (roundHalfEven (q / 2 ^ binaryUnit q) : ℚ) ≤ 2 ^ 53 := by linarith
  have lower : -(2 ^ 53 : ℚ) ≤ roundHalfEven (q / 2 ^ binaryUnit q) := by linarith
  have bound : |roundHalfEven (q / 2 ^ binaryUnit q)| ≤ 2 ^ 53 :=
    abs_le.mpr ⟨by exact_mod_cast lower, by exact_mod_cast upper⟩
  rcases bound.lt_or_eq with small | top
  · exact ⟨_, binaryUnit q, small, binaryUnit_ge q, rfl⟩
  · refine ⟨roundHalfEven (q / 2 ^ binaryUnit q) / 2, binaryUnit q + 1, ?_,
      by have := binaryUnit_ge q; omega, ?_⟩
    · rcases abs_eq (by norm_num) |>.mp top with same | same <;> rw [same] <;> norm_num
    · rcases abs_eq (by norm_num) |>.mp top with same | same <;>
        rw [roundBinary, same, zpow_add_one₀ two_ne_zero] <;> norm_num <;> ring

theorem roundBinary_of_isBinary {q : ℚ} (binary : IsBinary q) : roundBinary q = q := by
  have near := roundBinary_nearest q binary
  rw [sub_self, abs_zero] at near
  exact (sub_eq_zero.mp (abs_nonpos_iff.mp near)).symm

/-- Rounding to nearest is monotone: of two values, the rounding of the larger is not below
the rounding of the smaller. -/
theorem roundBinary_mono {a b : ℚ} (le : a ≤ b) : roundBinary a ≤ roundBinary b := by
  by_contra over
  push_neg at over
  have nearA := roundBinary_nearest a (roundBinary_isBinary b)
  have nearB := roundBinary_nearest b (roundBinary_isBinary a)
  have left : roundBinary b < a := by
    by_contra far
    push_neg at far
    rw [abs_of_neg (by linarith), abs_of_nonpos (by linarith)] at nearA
    linarith
  have right : b < roundBinary a := by
    by_contra far
    push_neg at far
    rw [abs_of_pos (by linarith), abs_of_nonneg (by linarith)] at nearB
    linarith
  rw [abs_of_neg (by linarith), abs_of_pos (by linarith)] at nearA
  rw [abs_of_pos (by linarith), abs_of_neg (by linarith)] at nearB
  obtain rfl : a = b := le_antisymm le (by linarith)
  exact lt_irrefl _ over

theorem roundBinary_neg (q : ℚ) : roundBinary (-q) = -roundBinary q := by
  simp only [roundBinary, binaryUnit_neg, neg_div, roundHalfEven_neg]
  push_cast
  ring

theorem roundBinary_intCast {n : ℤ} (small : |n| < 2 ^ 53) : roundBinary n = n :=
  roundBinary_of_isBinary (isBinary_intCast small)

@[simp] theorem roundBinary_zero : roundBinary 0 = 0 := by
  exact_mod_cast @roundBinary_intCast 0 (by norm_num)

@[simp] theorem roundBinary_one : roundBinary 1 = 1 := by
  exact_mod_cast @roundBinary_intCast 1 (by norm_num)

theorem roundBinary_nonneg {q : ℚ} (nonneg : 0 ≤ q) : 0 ≤ roundBinary q :=
  roundBinary_zero ▸ roundBinary_mono nonneg

theorem roundBinary_abs (q : ℚ) : roundBinary |q| = |roundBinary q| := by
  rcases le_or_lt 0 q with nonneg | negative
  · rw [abs_of_nonneg nonneg, abs_of_nonneg (roundBinary_nonneg nonneg)]
  · have nonpos : roundBinary q ≤ 0 := roundBinary_zero ▸ roundBinary_mono negative.le
    rw [abs_of_neg negative, abs_of_nonpos nonpos, roundBinary_neg]

end Nearest

section Doubles

@[simp] theorem JsNumber.neg_finite (a : ℚ) : (JsNumber.finite a).neg = .finite (-a) := rfl

@[simp] theorem JsNumber.abs_finite (a : ℚ) : (JsNumber.finite a).abs = .finite |a| := rfl

@[simp] theorem JsNumber.mul_finite (a b : ℚ) :
    (JsNumber.finite a).mul (.finite b) = .finite (a * b) := rfl

@[simp] theorem JsNumber.blt_finite (a b : ℚ) :
    (JsNumber.finite a).blt (.finite b) = decide (a < b) := rfl

@[simp] theorem JsNumber.strictEq_finite (a b : ℚ) :
    (JsNumber.finite a).strictEq (.finite b) = decide (a = b) := by
  simp [JsNumber.strictEq]

theorem JsNumber.div_finite (a : ℚ) {b : ℚ} (nonzero : b ≠ 0) :
    (JsNumber.finite a).div (.finite b) = .finite (a / b) := by
  simp [JsNumber.div, nonzero]

theorem JsNumber.toDouble_finite {q : ℚ} (small : |roundBinary q| < 2 ^ 1024) :
    (JsNumber.finite q).toDouble = .finite (roundBinary q) := by
  simp [JsNumber.toDouble, not_le.mpr small]

theorem IsDouble.toDouble {q : ℚ} (double : IsDouble q) : (JsNumber.finite q).toDouble = .finite q := by
  rw [JsNumber.toDouble_finite (by rw [roundBinary_of_isBinary double.1]; exact double.2),
    roundBinary_of_isBinary double.1]

theorem isDouble_intCast {n : ℤ} (small : |n| < 2 ^ 53) : IsDouble n := by
  have significand : |(n : ℚ)| < 2 ^ 53 := by exact_mod_cast small
  exact ⟨isBinary_intCast small, significand.trans (pow_lt_pow_right₀ (by norm_num) (by norm_num))⟩

theorem isDouble_roundBinary {q : ℚ} (small : |roundBinary q| < 2 ^ 1024) :
    IsDouble (roundBinary q) :=
  ⟨roundBinary_isBinary q, small⟩

@[simp] theorem JsNumber.toDouble_posInfinity : JsNumber.posInfinity.toDouble = .posInfinity := rfl

@[simp] theorem JsNumber.toDouble_zero : (JsNumber.finite 0).toDouble = .finite 0 := by
  rw [JsNumber.toDouble_finite (by simp), roundBinary_zero]

/-- A value in `[0, 1]` rounds into `[0, 1]`, to a double. -/
theorem roundBinary_mem_unit {q : ℚ} (lower : 0 ≤ q) (upper : q ≤ 1) :
    0 ≤ roundBinary q ∧ roundBinary q ≤ 1 ∧ IsDouble (roundBinary q) := by
  have top := roundBinary_one ▸ roundBinary_mono upper
  have bottom := roundBinary_nonneg lower
  exact ⟨bottom, top, isDouble_roundBinary (by rw [abs_of_nonneg bottom]; linarith)⟩

end Doubles

/-- `Number(x.toFixed(digits))` of a number in `[0, 1]` is a double in `[0, 1]`. -/
theorem numberToFixed_mem_unit (digits : ℕ) {x : ℚ} (lower : 0 ≤ x) (upper : x ≤ 1) :
    ∃ value, numberToFixed digits (.finite x) = .finite value ∧ IsDouble value ∧
      0 ≤ value ∧ value ≤ 1 := by
  obtain ⟨fixedLower, fixedUpper⟩ := @toFixed_mem_unit digits x lower upper
  obtain ⟨roundedLower, roundedUpper, double⟩ := roundBinary_mem_unit fixedLower fixedUpper
  exact ⟨_, JsNumber.toDouble_finite (by rw [abs_of_nonneg roundedLower]; linarith), double,
    roundedLower, roundedUpper⟩

end TruthBounty
