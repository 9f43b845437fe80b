import ChannelConfig.Bytes

/-!
# DER

Data as tagged elements: a tag of one byte, the length of the content, the content. A length has
exactly one spelling, and not every byte is a tag.
-/

set_option autoImplicit false

namespace ChannelConfig.Der

def integerTag : UInt8 := 0x02
def bitStringTag : UInt8 := 0x03
def octetStringTag : UInt8 := 0x04
def objectTag : UInt8 := 0x06
def sequenceTag : UInt8 := 0x30

/-- The tag of an optional element of that number, which holds others. -/
def contextTag (number : UInt8) : UInt8 := 0xa0 + number

/-- The tag of an optional element of that number, which holds a value itself. -/
def plainContextTag (number : UInt8) : UInt8 := 0x80 + number

/-- The tags of the types that mean the same everywhere. -/
def universalTags : List UInt8 :=
  [0x01, integerTag, bitStringTag, octetStringTag, 0x05, objectTag, 0x09, 0x0a, 0x0c, 0x12, 0x13,
    0x14, 0x15, 0x16, 0x17, 0x18, 0x1a, 0x1e, sequenceTag, 0x31]

/-- Whether a byte is a tag. The lower five bits are a number, and 31 stands for those that do not
fit into them. -/
def isTag (tag : UInt8) : Bool :=
  if tag < 0x40 then universalTags.contains tag else tag &&& 0x1f != 0x1f

/-! ## Writing -/

/-- The digits of a number to base 256, none for 0. -/
def digits (n : Nat) : Bytes :=
  if n = 0 then [] else digits (n / 256) ++ [UInt8.ofNat n]
termination_by n

def lengthBytes (n : Nat) : Bytes :=
  if n < 128 then [UInt8.ofNat n]
  else UInt8.ofNat (128 + (digits n).length) :: digits n

def element (tag : UInt8) (content : Bytes) : Bytes := tag :: (lengthBytes content.length ++ content)

/-- A number that is not negative: its first bit is 0. -/
def integer (n : Nat) : Bytes :=
  element integerTag
    (match digits n with
    | [] => [0]
    | d :: ds => if d < 128 then d :: ds else 0 :: d :: ds)

def sequence (elements : List Bytes) : Bytes := element sequenceTag elements.flatten

/-! ## Reading -/

/-- A length at the front, of at most four bytes of digits. -/
def readLength : Bytes → Option (Nat × Bytes)
  | [] => none
  | b :: rest =>
    if b < 128 then some (b.toNat, rest)
    else
      let count := b.toNat - 128
      let n := Bytes.toNat (rest.take count)
      if 1 ≤ count ∧ count ≤ 4 ∧ count ≤ rest.length ∧ lengthBytes n = b :: rest.take count then
        some (n, rest.drop count)
      else none

/-- The first element: its tag, its content, and what follows. -/
def readAny : Bytes → Option (UInt8 × Bytes × Bytes)
  | [] => none
  | tag :: rest => do
    let (length, rest) ← readLength rest
    if isTag tag ∧ length ≤ rest.length then some (tag, rest.take length, rest.drop length)
    else none

/-- The content of the first element, which must have the given tag. -/
def read (tag : UInt8) (bs : Bytes) : Option (Bytes × Bytes) := do
  let (t, content, rest) ← readAny bs
  if t = tag then some (content, rest) else none

/-- The content of the only element, which must have the given tag. -/
def readOnly (tag : UInt8) (bs : Bytes) : Option Bytes := do
  let (content, rest) ← read tag bs
  if rest.isEmpty then some content else none

/-- What follows the optional elements of number 0. -/
def skipNumberZero : (fuel : Nat) → Bytes → Option Bytes
  | 0, bs => some bs
  | fuel + 1, bs =>
    if bs.head? = some (contextTag 0) ∨ bs.head? = some (plainContextTag 0) then
      (readAny bs).bind fun (_, _, rest) => skipNumberZero fuel rest
    else some bs

/-- Whether the bytes are the rest of a number and more numbers, to base 128. Every digit but the
last of a number has its first bit set; `before` digits of the first number came before. A fifth
digit is at most 15 and the last, so that no number has more than 32 bits. -/
def areNumbers : (before : Nat) → Bytes → Bool
  | before, [] => before = 0
  | before, b :: bs =>
    (before < 4 || b < 16) && areNumbers (if b < 128 then 0 else before + 1) bs

/-- Whether the bytes name an object: two numbers in the first byte, the others in two bytes or
more, and 39 bytes at most. -/
def isObject : Bytes → Bool
  | [] => false
  | b :: bs => b < 120 && 2 ≤ bs.length && bs.length ≤ 38 && areNumbers 0 bs

/-- The bytes of a bit string that ends with a byte. -/
def bitString : Bytes → Option Bytes
  | 0 :: bs => some bs
  | _ => none

end ChannelConfig.Der
