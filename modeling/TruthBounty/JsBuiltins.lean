import Mathlib.Data.Rat.Floor
import Mathlib.Data.String.Basic

namespace TruthBounty

/-- A JavaScript `number` in exact arithmetic: a finite value, one of the two
infinities, or `NaN`. -/
inductive JsNumber where
  | finite (value : ℚ)
  | posInfinity
  | negInfinity
  | nan
  deriving DecidableEq

/-- JavaScript's `<=` on numbers. Every comparison with `NaN` is false. -/
def JsNumber.ble : JsNumber → JsNumber → Bool
  | .finite a, .finite b => decide (a ≤ b)
  | .nan, _ | _, .nan => false
  | .negInfinity, _ | _, .posInfinity => true
  | _, _ => false

instance : LE JsNumber := ⟨fun a b => a.ble b = true⟩

/-- `x + y` on numbers: `NaN` absorbs, and infinities of opposite signs give `NaN`. -/
def JsNumber.add : JsNumber → JsNumber → JsNumber
  | .finite a, .finite b => .finite (a + b)
  | .nan, _ | _, .nan => .nan
  | .posInfinity, .negInfinity | .negInfinity, .posInfinity => .nan
  | .posInfinity, _ | _, .posInfinity => .posInfinity
  | .negInfinity, _ | _, .negInfinity => .negInfinity

def JsNumber.neg : JsNumber → JsNumber
  | .finite a => .finite (-a)
  | .posInfinity => .negInfinity
  | .negInfinity => .posInfinity
  | .nan => .nan

/-- `Math.min(x, y)`: `NaN` when either is `NaN`, else the smaller. -/
def JsNumber.min (x y : JsNumber) : JsNumber :=
  match x, y with
  | .nan, _ | _, .nan => .nan
  | _, _ => if x.ble y then x else y

/-- The white space and line terminators `StringToNumber` trims. -/
def isJsWhiteSpace (c : Char) : Bool :=
  [0x09, 0x0A, 0x0B, 0x0C, 0x0D, 0x20, 0xA0, 0x1680, 0x2028, 0x2029, 0x202F, 0x205F, 0x3000,
    0xFEFF].contains c.toNat || (0x2000 ≤ c.toNat && c.toNat ≤ 0x200A)

/-- The value of a digit character: `0`–`9`, then `a`–`z` in either case from 10 on. -/
def digitValue (c : Char) : Option ℕ :=
  if '0' ≤ c ∧ c ≤ '9' then some (c.toNat - '0'.toNat)
  else if 'a' ≤ c ∧ c ≤ 'z' then some (c.toNat - 'a'.toNat + 10)
  else if 'A' ≤ c ∧ c ≤ 'Z' then some (c.toNat - 'A'.toNat + 10)
  else none

/-- The value of a non-empty run of digits of `base`; `none` for an empty run, or one
holding a character that is no digit of that base. -/
def digitsIn (base : ℕ) : List Char → Option ℕ
  | [] => none
  | digits => digits.foldlM (fun value c => (digitValue c).bind fun d =>
      if d < base then some (value * base + d) else none) 0

/-- `mantissa * 10 ^ exponent` as an exact rational. -/
def decimalValue (mantissa : ℕ) (exponent : ℤ) : ℚ :=
  if 0 ≤ exponent then ((mantissa * 10 ^ exponent.toNat : ℕ) : ℚ)
  else mkRat mantissa (10 ^ (-exponent).toNat)

/-- `StrUnsignedDecimalLiteral`: `Infinity`, or digits with an optional `.` fraction (not
both empty), then an optional exponent `e` or `E` with an optional sign. -/
def unsignedDecimal (chars : List Char) : Option JsNumber :=
  if chars = "Infinity".data then some .posInfinity
  else
    let (mantissa, exponentPart) := chars.span fun c => c ≠ 'e' ∧ c ≠ 'E'
    let (whole, fractionPart) := mantissa.span (· ≠ '.')
    let fraction := fractionPart.drop 1
    let exponent : Option ℤ := match exponentPart with
      | [] => some 0
      | _ :: '+' :: digits => (digitsIn 10 digits).map Int.ofNat
      | _ :: '-' :: digits => (digitsIn 10 digits).map fun d => -(d : ℤ)
      | _ :: digits => (digitsIn 10 digits).map Int.ofNat
    match digitsIn 10 (whole ++ fraction), exponent with
    | some value, some exponent =>
      some (.finite (decimalValue value (exponent - fraction.length)))
    | _, _ => none

/-- `StrDecimalLiteral`: an unsigned decimal literal with an optional sign. -/
def strDecimal : List Char → Option JsNumber
  | '+' :: chars => unsignedDecimal chars
  | '-' :: chars => (unsignedDecimal chars).map JsNumber.neg
  | chars => unsignedDecimal chars

/-- `NonDecimalIntegerLiteral`: `0x`, `0o` or `0b` in either case, then digits of that
base. -/
def nonDecimal : List Char → Option JsNumber
  | '0' :: marker :: digits =>
    let base := if marker = 'x' ∨ marker = 'X' then 16
      else if marker = 'o' ∨ marker = 'O' then 8
      else if marker = 'b' ∨ marker = 'B' then 2
      else 0
    if base = 0 then none else (digitsIn base digits).map fun value => .finite value
  | _ => none

/-- `StringToNumber`: the text without the white space around it is empty (`0`), a
non-decimal integer or a decimal literal; anything else is `NaN`. -/
def stringToNumber (text : String) : JsNumber :=
  let chars := ((text.data.dropWhile isJsWhiteSpace).reverse.dropWhile isJsWhiteSpace).reverse
  if chars = [] then .finite 0
  else ((nonDecimal chars).orElse fun _ => strDecimal chars).getD .nan

/-- A JavaScript value of the two kinds the services compute with: a number, or a string
such as the raw text of an environment variable. -/
inductive JsValue where
  | number (value : JsNumber)
  | string (text : String)
  deriving DecidableEq

/-- `ToNumber`, as `<=`, `-` and `Math.min` apply it. -/
def JsValue.toNumber : JsValue → JsNumber
  | .number value => value
  | .string text => stringToNumber text

/-- `value + n` for a natural number `n`: on a string, the string followed by the decimal
digits of `n`, which is `ToString` of an integer below `10^21`. -/
def JsValue.addNat (value : JsValue) (n : ℕ) : JsValue :=
  match value with
  | .number x => .number (x.add (.finite n))
  | .string text => .string (text ++ toString n)

/-- `Math.round`: the nearest integer, a half rounded up. -/
def jsRound (x : ℚ) : ℤ := ⌊x + 1 / 2⌋

/-- `Number(x.toFixed(digits))`: the magnitude rounded to `digits` decimals with a half
rounded up and the sign put back. From `10^21` on `toFixed` prints the number itself. -/
def toFixed (digits : ℕ) (x : ℚ) : ℚ :=
  if 10 ^ 21 ≤ |x| then x
  else if x < 0 then -(⌊-x * 10 ^ digits + 1 / 2⌋ / 10 ^ digits)
  else ⌊x * 10 ^ digits + 1 / 2⌋ / 10 ^ digits

@[simp] theorem JsNumber.ble_finite (a b : ℚ) :
    (JsNumber.finite a).ble (.finite b) = decide (a ≤ b) := rfl

@[simp] theorem JsNumber.add_finite (a b : ℚ) :
    (JsNumber.finite a).add (.finite b) = .finite (a + b) := rfl

@[simp] theorem JsNumber.min_finite (a b : ℚ) :
    (JsNumber.finite a).min (.finite b) = .finite (Min.min a b) := by
  by_cases le : a ≤ b <;> simp [JsNumber.min, le, min_def]

@[simp] theorem JsValue.toNumber_number (value : JsNumber) :
    (JsValue.number value).toNumber = value := rfl

@[simp] theorem JsValue.toNumber_string (text : String) :
    (JsValue.string text).toNumber = stringToNumber text := rfl

@[simp] theorem JsValue.addNat_number (value : JsNumber) (n : ℕ) :
    (JsValue.number value).addNat n = .number (value.add (.finite n)) := rfl

@[simp] theorem JsValue.addNat_string (text : String) (n : ℕ) :
    (JsValue.string text).addNat n = .string (text ++ toString n) := rfl

theorem jsRound_of_le_of_le {x : ℚ} {a b : ℤ} (lower : a ≤ x) (upper : x ≤ b) :
    a ≤ jsRound x ∧ jsRound x ≤ b := by
  refine ⟨Int.le_floor.mpr (by linarith), ?_⟩
  have below := Int.floor_le (x + 1 / 2)
  have : (jsRound x : ℚ) < b + 1 := by unfold jsRound; linarith
  exact_mod_cast Int.lt_add_one_iff.mp (by exact_mod_cast this)

/-- On a value in `[0, 1]`, rounding to a number of decimals stays in `[0, 1]`. -/
theorem toFixed_mem_unit {digits : ℕ} {x : ℚ} (lower : 0 ≤ x) (upper : x ≤ 1) :
    0 ≤ toFixed digits x ∧ toFixed digits x ≤ 1 := by
  have small : ¬ (10 : ℚ) ^ 21 ≤ |x| := by
    rw [abs_of_nonneg lower]; intro big; have : (1 : ℚ) < 10 ^ 21 := by norm_num
    linarith
  have scale : (0 : ℚ) < 10 ^ digits := by positivity
  simp only [toFixed, small, if_false, not_lt.mpr lower]
  constructor
  · exact div_nonneg (by exact_mod_cast Int.floor_nonneg.mpr (by positivity)) scale.le
  · rw [div_le_one scale]
    have : (⌊x * 10 ^ digits + 1 / 2⌋ : ℚ) ≤ x * 10 ^ digits + 1 / 2 := Int.floor_le _
    have whole : ⌊x * 10 ^ digits + 1 / 2⌋ ≤ ⌊(10 : ℚ) ^ digits + 1 / 2⌋ :=
      Int.floor_mono (by nlinarith)
    have top : ⌊(10 : ℚ) ^ digits + 1 / 2⌋ = 10 ^ digits := by
      rw [Int.floor_eq_iff]; push_cast; constructor <;> linarith
    rw [top] at whole
    exact_mod_cast whole

/-- `toLowerCase` on the characters of a string. -/
def toLowerCase (s : String) : String := ⟨s.data.map Char.toLower⟩

/-- `value || fallback` for an optional string: an unset or empty value takes the
fallback. -/
def stringOr (value : Option String) (fallback : String) : String :=
  match value with
  | some text => if text = "" then fallback else text
  | none => fallback

/-- `startsWith` on the characters of a string. -/
def startsWith (s pre : String) : Bool := pre.data.isPrefixOf s.data

/-- The truth value of an optional number in a condition: `undefined`, `0` and `NaN` are
false. -/
def numberTruthy : Option JsNumber → Bool
  | some (.finite x) => x ≠ 0
  | some .nan | none => false
  | some _ => true

/-- `String.prototype.trim`: the string without its leading and trailing white space and
line terminators. -/
def jsTrim (s : String) : String :=
  ⟨((s.data.dropWhile isJsWhiteSpace).reverse.dropWhile isJsWhiteSpace).reverse⟩

end TruthBounty
