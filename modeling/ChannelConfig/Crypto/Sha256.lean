import ChannelConfig.Bytes

/-!
# SHA-256 and HMAC

The hash of a message: padded to blocks of 64 bytes, each block of sixteen words mixed into a state
of eight in 64 rounds. `Hmac.code` is the authentication code made of that hash.
-/

set_option autoImplicit false

namespace ChannelConfig

namespace Sha256

/-- The first 32 bits of the fractional parts of the cube roots of the first 64 primes. -/
def roundConstants : List UInt32 := [
  0x428a2f98, 0x71374491, 0xb5c0fbcf, 0xe9b5dba5, 0x3956c25b, 0x59f111f1, 0x923f82a4, 0xab1c5ed5,
  0xd807aa98, 0x12835b01, 0x243185be, 0x550c7dc3, 0x72be5d74, 0x80deb1fe, 0x9bdc06a7, 0xc19bf174,
  0xe49b69c1, 0xefbe4786, 0x0fc19dc6, 0x240ca1cc, 0x2de92c6f, 0x4a7484aa, 0x5cb0a9dc, 0x76f988da,
  0x983e5152, 0xa831c66d, 0xb00327c8, 0xbf597fc7, 0xc6e00bf3, 0xd5a79147, 0x06ca6351, 0x14292967,
  0x27b70a85, 0x2e1b2138, 0x4d2c6dfc, 0x53380d13, 0x650a7354, 0x766a0abb, 0x81c2c92e, 0x92722c85,
  0xa2bfe8a1, 0xa81a664b, 0xc24b8b70, 0xc76c51a3, 0xd192e819, 0xd6990624, 0xf40e3585, 0x106aa070,
  0x19a4c116, 0x1e376c08, 0x2748774c, 0x34b0bcb5, 0x391c0cb3, 0x4ed8aa4a, 0x5b9cca4f, 0x682e6ff3,
  0x748f82ee, 0x78a5636f, 0x84c87814, 0x8cc70208, 0x90befffa, 0xa4506ceb, 0xbef9a3f7, 0xc67178f2]

structure State where
  a : UInt32
  b : UInt32
  c : UInt32
  d : UInt32
  e : UInt32
  f : UInt32
  g : UInt32
  h : UInt32

/-- The first 32 bits of the fractional parts of the square roots of the first eight primes. -/
def initial : State where
  a := 0x6a09e667
  b := 0xbb67ae85
  c := 0x3c6ef372
  d := 0xa54ff53a
  e := 0x510e527f
  f := 0x9b05688c
  g := 0x1f83d9ab
  h := 0x5be0cd19

def rotate (x : UInt32) (n : UInt32) : UInt32 := (x >>> n) ||| (x <<< (32 - n))

/-- One round, with the constant and the word of the round. -/
def State.step (s : State) (constant word : UInt32) : State :=
  let mixed := s.h + (rotate s.e 6 ^^^ rotate s.e 11 ^^^ rotate s.e 25) +
    ((s.e &&& s.f) ^^^ (~~~s.e &&& s.g)) + constant + word
  let majority := (s.a &&& s.b) ^^^ (s.a &&& s.c) ^^^ (s.b &&& s.c)
  { a := mixed + (rotate s.a 2 ^^^ rotate s.a 13 ^^^ rotate s.a 22) + majority
    b := s.a
    c := s.b
    d := s.c
    e := s.d + mixed
    f := s.e
    g := s.f
    h := s.g }

def State.add (s t : State) : State where
  a := s.a + t.a
  b := s.b + t.b
  c := s.c + t.c
  d := s.d + t.d
  e := s.e + t.e
  f := s.f + t.f
  g := s.g + t.g
  h := s.h + t.h

/-- The words of the next sixteen rounds, one round later. -/
def advance : List UInt32 → List UInt32
  | [] => []
  | w :: ws =>
    let near := ws.getD 13 0
    let far := ws.getD 0 0
    ws ++ [(rotate near 17 ^^^ rotate near 19 ^^^ (near >>> 10)) + ws.getD 8 0 +
      (rotate far 7 ^^^ rotate far 18 ^^^ (far >>> 3)) + w]

/-- Mixes one block of sixteen words into the state. -/
def compress (s : State) (block : List UInt32) : State :=
  s.add (roundConstants.foldl
    (fun (t, words) constant => (State.step t constant (words.headD 0), advance words)) (s, block)).1

/-- The message, a one bit, zeros, and the number of its bits in eight bytes. -/
def pad (message : Bytes) : Bytes :=
  message ++ 0x80 :: List.replicate ((119 - message.length % 64) % 64) 0 ++
    Bytes.ofNat 8 (8 * message.length)

def toWords : Bytes → List UInt32
  | a :: b :: c :: d :: rest => UInt32.ofNat (Bytes.toNat [a, b, c, d]) :: toWords rest
  | _ => []

def compressAll : (blocks : Nat) → State → List UInt32 → State
  | 0, s, _ => s
  | blocks + 1, s, words => compressAll blocks (compress s (words.take 16)) (words.drop 16)

def State.toBytes (s : State) : Bytes :=
  [s.a, s.b, s.c, s.d, s.e, s.f, s.g, s.h].flatMap fun w => Bytes.ofNat 4 w.toNat

def hash (message : Bytes) : Bytes :=
  let words := toWords (pad message)
  (compressAll (words.length / 16) initial words).toBytes

theorem length_ofNat (width n : Nat) : (Bytes.ofNat width n).length = width := by
  induction width generalizing n with
  | zero => rfl
  | succ width ih => simp [Bytes.ofNat, ih]

@[simp] theorem length_hash (message : Bytes) : (hash message).length = 32 := by
  simp [hash, State.toBytes, length_ofNat]

end Sha256

namespace Hmac

/-- The key filled up with zeros to the length of a block, each byte combined with a mask. -/
def maskedKey (key : Bytes) (mask : UInt8) : Bytes :=
  (key ++ List.replicate (64 - key.length) 0).map (· ^^^ mask)

/-- The authentication code of a message under a key. -/
def code (key message : Bytes) : Bytes :=
  let key := if key.length ≤ 64 then key else Sha256.hash key
  Sha256.hash (maskedKey key 0x5c ++ Sha256.hash (maskedKey key 0x36 ++ message))

end Hmac

end ChannelConfig
