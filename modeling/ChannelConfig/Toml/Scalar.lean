import ChannelConfig.Datum
import ChannelConfig.Toml.Text

/-!
# Numbers, dates and times of TOML

A scalar that is no string is a run of characters up to a delimiter, and is judged as a whole. Only
a date and a time may have a blank between them.
-/

set_option autoImplicit false

namespace ChannelConfig.Toml

/-! ## Numbers -/

/-- Digits, single underscores between them allowed, without the underscores. -/
def digitRun (isDigit : Char → Bool) : List Char → Option (List Char)
  | [] => none
  | [c] => if isDigit c then some [c] else none
  | c :: '_' :: rest => if isDigit c then (digitRun isDigit rest).map (c :: ·) else none
  | c :: rest => if isDigit c then (digitRun isDigit rest).map (c :: ·) else none

/-- Whether a number is negative, and the rest of it. -/
def splitSign : List Char → Bool × List Char
  | '-' :: rest => (true, rest)
  | '+' :: rest => (false, rest)
  | cs => (false, cs)

/-- The digits of a whole number, which begins with 0 only if that is all of it. -/
def wholeDigits (cs : List Char) : Option (List Char) :=
  match digitRun Char.isDigit cs with
  | some ('0' :: _ :: _) => none
  | digits => digits

/-- Integers have 64 bits. -/
def inRange (n : Int) : Option Int :=
  if -9223372036854775808 ≤ n ∧ n ≤ 9223372036854775807 then some n else none

/-- An integer of 64 bits, to base 16, 8 or 2 after `0x`, `0o` or `0b`. -/
def integer (cs : List Char) : Option Int :=
  let based (base : Nat) (isDigit : Char → Bool) (cs : List Char) : Option Int :=
    (digitRun isDigit cs).bind fun digits => inRange (ofDigits base digits)
  match cs with
  | '0' :: 'x' :: rest => based 16 isHexDigit rest
  | '0' :: 'o' :: rest => based 8 (fun c => '0' ≤ c && c ≤ '7') rest
  | '0' :: 'b' :: rest => based 2 (fun c => c = '0' || c = '1') rest
  | cs =>
    let (negative, rest) := splitSign cs
    (wholeDigits rest).bind fun digits =>
      inRange (if negative then -(ofDigits 10 digits : Int) else ofDigits 10 digits)

/-- The exponent after `e` or `E`; 0 where there is none. -/
def exponent : List Char → Option Int
  | [] => some 0
  | e :: rest =>
    let (negative, rest) := splitSign rest
    if e = 'e' || e = 'E' then
      (digitRun Char.isDigit rest).map fun digits =>
        if negative then -(ofDigits 10 digits : Int) else ofDigits 10 digits
    else none

/-- Whether `digits`, the last `decimals` of them after the point, times a power of ten exceeds all
numbers of 53 binary digits with exponents up to 1023, also when rounded. -/
def isHuge (digits : List Char) (decimals : Nat) (exponent : Int) : Bool :=
  let digits := digits.dropWhile (· = '0')
  let power := exponent - decimals
  let width := digits.length + power
  if digits.isEmpty || width < 300 then false
  else if 320 < width then true
  else ((1 <<< 54 - 1) <<< 970) * Nat.pow 10 (-power).toNat ≤
    ofDigits 10 digits * Nat.pow 10 power.toNat

/-- A number with a point, an exponent or both, or one of the names of infinity and of no number. A
positive one must not be huge. -/
def isDecimal (cs : List Char) : Bool :=
  let (negative, rest) := splitSign cs
  let named := rest = ['i', 'n', 'f'] || rest = ['n', 'a', 'n']
  let isDigitChar (c : Char) : Bool := c.isDigit || c = '_'
  let whole := wholeDigits (rest.takeWhile isDigitChar)
  let tail := rest.dropWhile isDigitChar
  let read (decimals : Option (List Char)) (tail : List Char) : Bool :=
    match whole, decimals, exponent tail with
    | some whole, some decimals, some e =>
      negative || !isHuge (whole ++ decimals) decimals.length e
    | _, _, _ => false
  named ||
    match tail with
    | [] => false
    | '.' :: tail =>
      read (digitRun Char.isDigit (tail.takeWhile isDigitChar)) (tail.dropWhile isDigitChar)
    | tail => read (some []) tail

/-! ## Dates and times -/

/-- A number of exactly two digits between two bounds. -/
def twoDigits (least greatest : Nat) (a b : Char) : Option Nat :=
  let n := ofDigits 10 [a, b]
  if a.isDigit && b.isDigit && least ≤ n && n ≤ greatest then some n else none

def isLeapYear (year : Nat) : Bool := year % 4 = 0 && (year % 100 ≠ 0 || year % 400 = 0)

def daysIn (year month : Nat) : Nat :=
  if month = 2 then if isLeapYear year then 29 else 28
  else if month = 4 || month = 6 || month = 9 || month = 11 then 30
  else 31

def date : Reader (List Char)
  | a :: b :: c :: d :: '-' :: e :: f :: '-' :: g :: h :: rest =>
    if [a, b, c, d].all Char.isDigit then do
      let month ← twoDigits 1 12 e f
      let _ ← twoDigits 1 (daysIn (ofDigits 10 [a, b, c, d]) month) g h
      some ([a, b, c, d, '-', e, f, '-', g, h], rest)
    else none
  | _ => none

/-- A fraction of a second: at most nine digits of it count, without zeros at the end. -/
def fraction (digits : List Char) : List Char :=
  match ((digits.take 9).reverse.dropWhile (· = '0')).reverse with
  | [] => []
  | digits => '.' :: digits

def time : Reader (List Char)
  | a :: b :: ':' :: c :: d :: ':' :: e :: f :: rest => do
    let _ ← twoDigits 0 23 a b
    let _ ← twoDigits 0 59 c d
    let _ ← twoDigits 0 60 e f
    let text := [a, b, ':', c, d, ':', e, f]
    match rest with
    | '.' :: tail =>
      match tail.takeWhile Char.isDigit with
      | [] => none
      | digits => some (text ++ fraction digits, tail.dropWhile Char.isDigit)
    | rest => some (text, rest)
  | _ => none

/-- How far a time is off universal time, as text. -/
def offset : List Char → Option (List Char)
  | [] => some []
  | ['Z'] => some ['Z']
  | ['z'] => some ['Z']
  | [sign, a, b, ':', c, d] =>
    if sign = '+' || sign = '-' then do
      let hours ← twoDigits 0 23 a b
      let minutes ← twoDigits 0 59 c d
      some ((if hours = 0 && minutes = 0 then '+' else sign) :: [a, b, ':', c, d])
    else none
  | _ => none

/-- A time and its offset, and nothing more. -/
def timeOfDay (cs : List Char) : Option (List Char) := do
  let (clock, rest) ← time cs
  let zone ← offset rest
  return clock ++ zone

/-- A moment, with or without date, time and offset, as text. -/
def moment (cs : List Char) : Option (List Char) :=
  match date cs with
  | some (day, []) => some day
  | some (day, t :: rest) =>
    if t = 'T' || t = 't' || t = ' ' then (timeOfDay rest).map fun clock => day ++ 'T' :: clock
    else none
  | none =>
    match time cs with
    | some (clock, []) => some clock
    | _ => none

/-- The name of the only entry of the table that a moment is given as. -/
def momentKey : String := "$__toml_private_datetime"

/-! ## Scalars -/

def isScalarChar (c : Char) : Bool :=
  isLetterOrDigit c || c = '+' || c = '-' || c = '_' || c = '.' || c = ':'

/-- What a run of characters stands for. -/
def judge (cs : List Char) : Option Datum :=
  if cs = ['t', 'r', 'u', 'e'] then some (.bool true)
  else if cs = ['f', 'a', 'l', 's', 'e'] then some (.bool false)
  else
    match moment cs with
    | some text => some (.table (.ofList [(momentKey, .text (String.ofList text))]))
    | none =>
      match integer cs with
      | some n => some (.int n)
      | none => if isDecimal cs then some (.decimal (String.ofList cs)) else none

/-- A run of characters, a second one after a blank if the two are a date and a time. -/
def run (cs : List Char) : List Char × List Char :=
  let first := cs.takeWhile isScalarChar
  let rest := cs.dropWhile isScalarChar
  match rest with
  | ' ' :: tail =>
    let joined := first ++ ' ' :: tail.takeWhile isScalarChar
    if (moment joined).isSome then (joined, tail.dropWhile isScalarChar) else (first, rest)
  | _ => (first, rest)

/-- A value that holds no other values. -/
def scalar : Reader Datum
  | '"' :: rest => (string ('"' :: rest)).map fun (s, rest) => (.text s, rest)
  | '\'' :: rest => (string ('\'' :: rest)).map fun (s, rest) => (.text s, rest)
  | cs =>
    let (text, rest) := run cs
    (judge text).map fun d => (d, rest)

end ChannelConfig.Toml
