/-!
# Numbers of 53 binary digits

`Binary64.nearest` rounds a fraction to the nearest number m · 2^e with m below 2^53 and e at least
-1074, of two equally near ones to the one with even m. From 2^1024 on a number counts as infinite.
-/

set_option autoImplicit false

namespace ChannelConfig

/-- A number that is not negative: `mantissa * 2 ^ exponent`, or infinite. -/
inductive Binary64 where
  | finite (mantissa : Nat) (exponent : Int)
  | infinite
  deriving DecidableEq, Repr

namespace Binary64

/-- The quotient rounded to the nearest number, a tie to the even one. -/
def divideToEven (num den : Nat) : Nat :=
  let quotient := num / den
  let twice := 2 * (num % den)
  if den < twice ∨ (den = twice ∧ quotient % 2 = 1) then quotient + 1 else quotient

/-- `num / den` as a fraction of `2 ^ exponent`. -/
def scaled (num den : Nat) (exponent : Int) : Nat × Nat :=
  (num <<< (-exponent).toNat, den <<< exponent.toNat)

def nearest (num den : Nat) : Binary64 :=
  let guess : Int := num.log2 - den.log2 - 53
  let (n, d) := scaled num den guess
  let exponent := max (-1074) (if 1 <<< 53 ≤ n / d then guess + 1 else guess)
  let (n, d) := scaled num den exponent
  let mantissa := divideToEven n d
  if 1 <<< 1024 ≤ (mantissa <<< exponent.toNat) >>> (-exponent).toNat then .infinite
  else .finite mantissa exponent

/-- The product with a number, itself rounded. -/
def scale (factor : Nat) : Binary64 → Binary64
  | .finite mantissa exponent =>
    nearest ((mantissa * factor) <<< exponent.toNat) (1 <<< (-exponent).toNat)
  | .infinite => .infinite

/-- The nearest whole number, a half rounded up, but at most `limit`. -/
def toNat (limit : Nat) : Binary64 → Nat
  | .finite mantissa exponent =>
    let den := 1 <<< (-exponent).toNat
    min limit ((2 * (mantissa <<< exponent.toNat) + den) / (2 * den))
  | .infinite => limit

end Binary64

end ChannelConfig
