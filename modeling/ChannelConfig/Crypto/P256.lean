import ChannelConfig.Bytes

/-!
# The curve P-256

The points of y² = x³ - 3x + b over a prime field, with their addition. Coordinates are numbers below
the prime; `order` is the number of points, a prime too.
-/

set_option autoImplicit false

namespace ChannelConfig.P256

def prime : Nat := 0xffffffff00000001000000000000000000000000ffffffffffffffffffffffff

def order : Nat := 0xffffffff00000000ffffffffffffffffbce6faada7179e84f3b9cac2fc632551

/-- The bytes that a coordinate or a number below `order` takes. -/
def width : Nat := 32

/-! ## Arithmetic modulo a number -/

def powMod (modulus base exponent : Nat) : Nat :=
  if exponent = 0 then 1 % modulus
  else
    let half := powMod modulus base (exponent / 2)
    let square := half * half % modulus
    if exponent % 2 = 0 then square else square * base % modulus
termination_by exponent

/-- The inverse modulo a prime; that of 0 is 0. -/
def inverse (modulus n : Nat) : Nat := powMod modulus n (modulus - 2)

def subMod (modulus a b : Nat) : Nat := (a + (modulus - b % modulus)) % modulus

/-! ## Points -/

inductive Point where
  | infinity
  | affine (x y : Nat)
  deriving DecidableEq, Repr

namespace Point

def generator : Point :=
  .affine 0x6b17d1f2e12c4247f8bce6e563a440f277037d812deb33a0f4a13945d898c296
    0x4fe342e2fe1a7f9b8ee7eb4a7c0f9e162bce33576b315ececbb6406837bf51f5

/-- The third point of a line through two points, with its second coordinate negated. -/
def onLine (slope x y x' : Nat) : Point :=
  let x'' := subMod prime (slope * slope) (x + x')
  .affine x'' (subMod prime (slope * subMod prime x x'') y)

def double : Point → Point
  | .infinity => .infinity
  | .affine x y =>
    if y = 0 then .infinity
    else onLine (subMod prime (3 * x * x) 3 * inverse prime (2 * y % prime) % prime) x y x

def add : Point → Point → Point
  | .infinity, q => q
  | p, .infinity => p
  | .affine x y, .affine x' y' =>
    if x = x' then if y = y' then double (.affine x y) else .infinity
    else onLine (subMod prime y' y * inverse prime (subMod prime x' x) % prime) x y x'

/-- The sum of that many equal points. -/
def times (n : Nat) (p : Point) : Point :=
  if n = 0 then .infinity
  else
    let twice := (times (n / 2) p).double
    if n % 2 = 0 then twice else twice.add p
termination_by n

/-- The point as bytes: both coordinates, after a 4. -/
def toBytes : Point → Bytes
  | .infinity => [0]
  | .affine x y => 4 :: (Bytes.ofNat width x ++ Bytes.ofNat width y)

/-- The first coordinate, after a 2 or a 3 that tells whether the second one is odd. -/
def toShortBytes : Point → Bytes
  | .infinity => [0]
  | .affine x y => (if y % 2 = 0 then 2 else 3) :: Bytes.ofNat width x

end Point

/-- The point that anyone may know, for a secret number. -/
def publicKey (secret : Nat) : Point := Point.generator.times secret

end ChannelConfig.P256
