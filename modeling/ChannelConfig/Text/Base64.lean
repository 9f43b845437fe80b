import ChannelConfig.Bytes

/-!
# Base 64

Three bytes are written as four digits of six bits; equal signs fill up the last four.
-/

set_option autoImplicit false

namespace ChannelConfig.Base64

/-- The sign that stands for no digit. -/
def padding : UInt8 := 61

def digit? (c : UInt8) : Option Nat :=
  if 65 ≤ c ∧ c ≤ 90 then some (c.toNat - 65)
  else if 97 ≤ c ∧ c ≤ 122 then some (c.toNat - 71)
  else if 48 ≤ c ∧ c ≤ 57 then some (c.toNat + 4)
  else if c = 43 then some 62
  else if c = 47 then some 63
  else none

/-- The number with these digits, if that is what they are. -/
def number? (cs : List UInt8) : Option Nat :=
  (cs.mapM digit?).map fun ds => ds.foldl (fun n d => n * 64 + d) 0

/-- The bytes of a number that leaves no bits over beyond them. -/
def exactly (width left : Nat) (n : Nat) : Option Bytes :=
  if n % (1 <<< left) = 0 then some (Bytes.ofNat width (n >>> left)) else none

/-- Reads complete groups of four, the last one filled up; bits that no byte uses are 0. -/
def decode : Bytes → Option Bytes
  | [] => some []
  | [a, b, c, d] =>
    if d ≠ padding then (number? [a, b, c, d]).bind (exactly 3 0)
    else if c ≠ padding then (number? [a, b, c]).bind (exactly 2 2)
    else (number? [a, b]).bind (exactly 1 4)
  | a :: b :: c :: d :: rest => do
    let bs ← (number? [a, b, c, d]).bind (exactly 3 0)
    let more ← decode rest
    return bs ++ more
  | _ => none

def isBlank (c : UInt8) : Bool := c = 32 || (9 ≤ c && c ≤ 13)

/-- Whether the text can be read by a reader that skips blanks, does not miss the filling at the end
and does not look at bits that no byte uses. -/
def isReadable (text : Bytes) : Bool :=
  let cs := text.filter fun c => !isBlank c
  let digits := cs.takeWhile fun c => (digit? c).isSome
  let rest := cs.dropWhile fun c => (digit? c).isSome
  let missing := (4 - digits.length % 4) % 4
  rest.all (· = padding) && missing ≤ 2 && (rest.length = 0 || rest.length = missing)

end ChannelConfig.Base64
