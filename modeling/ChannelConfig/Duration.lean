import ChannelConfig.Error
import ChannelConfig.Text.Binary64

/-!
# Durations

A duration is written as a sequence of components, each a decimal number and a unit (`1m30s`,
`1.5h`), and is the sum of its components, each taken to the nearest nanosecond and cut off at
2^64 - 1 of them.
-/

set_option autoImplicit false

namespace ChannelConfig

structure Duration where
  nanoseconds : Nat
  deriving DecidableEq, Repr

namespace Duration

def seconds (d : Duration) : Nat := d.nanoseconds / 1000000000

/-- The nanoseconds beyond whole seconds. -/
def subsecond (d : Duration) : Nat := d.nanoseconds % 1000000000

/-! ## Components -/

/-- The units by name, and how many nanoseconds they are. -/
def units : List (String × Nat) :=
  [("ns", 1), ("us", 1000), ("µs", 1000), ("ms", 1000000), ("s", 1000000000), ("m", 60000000000),
    ("h", 3600000000000)]

def isNumberChar (c : Char) : Bool := c.isDigit || c = '.'

/-- The fraction that digits with at most one point among them, and not that alone, stand for. -/
def fraction? (number : List Char) : Option (Nat × Nat) :=
  let value (digits : List Char) : Nat := digits.foldl (fun n c => n * 10 + (c.toNat - 48)) 0
  let whole := number.takeWhile Char.isDigit
  match number.dropWhile Char.isDigit with
  | [] => if whole.isEmpty then none else some (value whole, 1)
  | point :: decimals =>
    if point = '.' && decimals.all Char.isDigit && !(whole.isEmpty && decimals.isEmpty) then
      some (value (whole ++ decimals), Nat.pow 10 decimals.length)
    else none

/-- A component in nanoseconds. Number and product are each rounded to 53 binary digits. -/
def component (num den unit : Nat) : Nat :=
  ((Binary64.nearest num den).scale unit).toNat (UInt64.size - 1)

/-! ## Text -/

theorem length_dropWhile_lt {p : Char → Bool} {cs : List Char} (h : cs.takeWhile p ≠ []) :
    (cs.dropWhile p).length < cs.length := by
  have hlen := congrArg List.length (List.takeWhile_append_dropWhile (p := p) (l := cs))
  have hpos := List.length_pos_iff.2 h
  rw [List.length_append] at hlen
  omega

/-- The sum of the components of a text, in nanoseconds. -/
def sumComponents (text : List Char) : Except DurationFault Nat :=
  match text with
  | [] => .ok 0
  | c :: cs =>
    let number := (c :: cs).takeWhile isNumberChar
    if h : number = [] ∨ number = ['.'] then
      .error (.expectedNumber (String.ofList (c :: cs)))
    else
      let tail := (c :: cs).dropWhile isNumberChar
      let unit := tail.takeWhile fun c => !isNumberChar c
      let rest := tail.dropWhile fun c => !isNumberChar c
      if unit.isEmpty then .error (.missingUnit (String.ofList number))
      else
        match units.lookup (String.ofList unit) with
        | none => .error (.unknownUnit (String.ofList unit))
        | some nanoseconds =>
          match fraction? number with
          | none => .error (.badNumber (String.ofList number))
          | some (num, den) =>
            have : rest.length < (c :: cs).length :=
              Nat.lt_of_le_of_lt (List.dropWhile_suffix _).length_le
                (length_dropWhile_lt fun hn => h (.inl hn))
            (sumComponents rest).map (component num den nanoseconds + ·)
termination_by text.length
decreasing_by assumption

def parse (text : String) : Except DurationFault Duration :=
  if text.isEmpty then .error .empty else (sumComponents text.toList).map Duration.mk

end Duration

end ChannelConfig
