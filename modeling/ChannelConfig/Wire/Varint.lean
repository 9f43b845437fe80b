import ChannelConfig.Bytes

/-!
# Variable-length numbers

A number is written to base 128, least significant digit first, the high bit of a byte saying that
more follow. Reading takes at most ten digits, and the tenth may only be 0 or 1, so that the number
fits 64 bits; it need not be the shortest spelling.
-/

set_option autoImplicit false

namespace ChannelConfig.Wire

/-- Why bytes are not an encoded message. -/
inductive DecodeError where
  | truncated
  | badVarint
  | badKey
  | badText
  | wrongWireType
  | unmatchedGroup
  | tooDeep
  deriving DecidableEq, Repr

namespace Varint

def encode (n : Nat) : Bytes :=
  if n < 128 then [UInt8.ofNat n]
  else UInt8.ofNat (n % 128 + 128) :: encode (n / 128)
termination_by n

/-- Reads a number of at most the given number of digits. -/
def read : Nat → Bytes → Except DecodeError (Nat × Bytes)
  | 0, _ => .error .badVarint
  | _ + 1, [] => .error .truncated
  | more + 1, b :: rest =>
    if b < 128 then
      if more = 0 ∧ 1 < b then .error .badVarint else .ok (b.toNat, rest)
    else
      match read more rest with
      | .ok (n, rest') => .ok (b.toNat - 128 + 128 * n, rest')
      | .error e => .error e

def decode (bs : Bytes) : Except DecodeError (Nat × Bytes) := read 10 bs

theorem length_lt_of_read {bs rest : Bytes} {n : Nat} :
    {digits : Nat} → read digits bs = .ok (n, rest) → rest.length < bs.length := by
  intro digits h
  induction digits generalizing bs n with
  | zero => cases h
  | succ more ih =>
    cases bs with
    | nil => cases h
    | cons b bs =>
      simp only [read] at h
      split at h
      · split at h
        · cases h
        · cases h; simp
      · split at h
        · next hr => cases h; have := ih hr; simp; omega
        · cases h

theorem length_lt_of_decode {bs rest : Bytes} {n : Nat} (h : decode bs = .ok (n, rest)) :
    rest.length < bs.length :=
  length_lt_of_read h

end Varint

end ChannelConfig.Wire
