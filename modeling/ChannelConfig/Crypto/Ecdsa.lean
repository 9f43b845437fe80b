import ChannelConfig.Crypto.Sha256
import ChannelConfig.Crypto.P256
import ChannelConfig.Crypto.Der

/-!
# Signatures

ECDSA over P-256 with SHA-256. The number that must not be used twice is derived from key and
message, so that signing the same message again gives the same signature; of the two signatures that
it allows, the one with the smaller second part is taken.
-/

set_option autoImplicit false

namespace ChannelConfig

namespace Ecdsa

open P256

/-! ## The secret number of a signature -/

/-- A source of pseudorandom bytes. -/
structure Source where
  key : Bytes
  value : Bytes

namespace Source

/-- Mixes a mark and more data into the source. -/
def mix (s : Source) (mark : UInt8) (data : Bytes) : Source :=
  let key := Hmac.code s.key (s.value ++ mark :: data)
  { key, value := Hmac.code key s.value }

def ofSeed (data : Bytes) : Source :=
  ((⟨List.replicate 32 0, List.replicate 32 1⟩ : Source).mix 0 data).mix 1 data

/-- The first of at most that many draws that lies between 0 and the order. -/
def draw : (tries : Nat) → Source → Option Nat
  | 0, _ => none
  | tries + 1, s =>
    let value := Hmac.code s.key s.value
    let n := Bytes.toNat value
    if n ≠ 0 ∧ n < order then some n else draw tries ({ s with value }.mix 0 [])

end Source

/-- How often a number is drawn; one draw in 2^32 fails. -/
def maxTries : Nat := 64

/-- The number that a secret key uses for a hash. All 256 bits of the hash count, also above the
order. -/
def nonce (secret hash : Nat) : Option Nat :=
  (Source.ofSeed (Bytes.ofNat width secret ++ Bytes.ofNat width hash)).draw maxTries

/-! ## Signing -/

structure Signature where
  r : Nat
  s : Nat
  deriving DecidableEq, Repr

def sign? (secret : Nat) (message : Bytes) : Option Signature := do
  let hash := Bytes.toNat (Sha256.hash message)
  let k ← nonce secret hash
  match Point.generator.times k with
  | .infinity => none
  | .affine x _ =>
    let r := x % order
    let s := inverse order k * (hash + r * secret) % order
    if r = 0 ∨ s = 0 then none else some { r, s := min s (order - s) }

/-- The signature as two numbers in a sequence. -/
def Signature.toDer (sig : Signature) : Bytes := Der.sequence [Der.integer sig.r, Der.integer sig.s]

end Ecdsa

end ChannelConfig
