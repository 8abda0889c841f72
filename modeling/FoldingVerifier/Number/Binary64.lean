import FoldingVerifier.Fault

/-! Real numbers as documents carry them: rounded to 53 binary digits, half to
even, with infinities beyond the largest and a value that is no number. -/
namespace FoldingVerifier

/-- A finite value is `significand · 2 ^ exponent`, with its sign. -/
inductive Binary64 where
  | nan
  | infinite (negative : Bool)
  | finite (negative : Bool) (significand : Nat) (exponent : Int)
deriving DecidableEq, Repr

namespace Binary64

/-- The nearest integer to `n / d`; of two the even one. -/
def roundQuotient (n d : Nat) : Nat :=
  let floor := n / d
  let rest := 2 * (n % d)
  if rest < d then floor
  else if d < rest then floor + 1
  else floor + floor % 2

/-- The product with `2 ^ e`, as a fraction. -/
def shift (n d : Nat) (e : Int) : Nat × Nat :=
  if 0 ≤ e then (n * Nat.pow 2 e.toNat, d) else (n, d * Nat.pow 2 (-e).toNat)

/-- The largest `e` with `2 ^ e ≤ n / d`. -/
def binaryExponent (n d : Nat) : Int :=
  let e : Int := n.log2 - d.log2
  let (n', d') := shift n d (-e)
  if d' ≤ n' then e else e - 1

/-- The value nearest to the positive fraction `n / d`. -/
def ofFraction (negative : Bool) (n d : Nat) : Binary64 :=
  let e := max (binaryExponent n d - 52) (-1074)
  let (n', d') := shift n d (-e)
  let m := roundQuotient n' d'
  if 1024 ≤ m.log2 + e then infinite negative else finite negative m e

/-- The value nearest to `digits · 10 ^ exponent`. Powers far outside the range
of finite values are not computed. -/
def ofDecimal (negative : Bool) (digits : Nat) (exponent : Int) : Binary64 :=
  let size : Int := (Nat.toDigits 10 digits).length + exponent
  if digits = 0 ∨ size < -400 then finite negative 0 0
  else if 400 < size then infinite negative
  else if 0 ≤ exponent then ofFraction negative (digits * Nat.pow 10 exponent.toNat) 1
  else ofFraction negative digits (Nat.pow 10 (-exponent).toNat)

/-- The integer part. -/
def truncate : Binary64 → Except Fault Int
  | nan => .error (.value .notANumber)
  | infinite _ => .error .infiniteInteger
  | finite negative m e =>
      let magnitude : Nat := if 0 ≤ e then m * Nat.pow 2 e.toNat else m / Nat.pow 2 (-e).toNat
      .ok (if negative then -(magnitude : Int) else magnitude)

end Binary64
end FoldingVerifier
