import ChannelConfig.Error
import ChannelConfig.Text.Alphanumeric

/-!
# Tokens of policy expressions

`Token.scan` cuts a text into tokens. Blanks stand between tokens and mean nothing else; a literal
runs from a quote to the next quote of the same kind; digits at the start of a token make a number,
which has to fit 63 bits; a word is made of letters, digits, `_`, `.` and `-`.
-/

set_option autoImplicit false

namespace ChannelConfig.Policy

inductive Token where
  | word (text : String)
  | number (n : Nat)
  | literal (text : String)
  | openParen
  | closeParen
  | comma
  deriving DecidableEq, Repr

namespace Token

/-- The token as messages show it. -/
def shown : Token → String
  | word text => text
  | number n => toString n
  | literal text => "'" ++ text ++ "'"
  | openParen => "("
  | closeParen => ")"
  | comma => ","

def isWordChar (c : Char) : Bool :=
  Text.isAlphanumeric c || c = '_' || c = '.' || c = '-'

def digitsValue (digits : List Char) : Nat :=
  digits.foldl (fun n c => n * 10 + (c.toNat - '0'.toNat)) 0

/-- The greatest number of 63 bits. -/
def maxNumber : Nat := 9223372036854775807

/-- The size of a text in UTF-8. -/
def utf8Length (cs : List Char) : Nat := cs.foldr (fun c n => c.utf8Size + n) 0

/-- Scans a text that starts at the given offset, counted in bytes of UTF-8. -/
def scan (offset : Nat) (text : List Char) : Except PolicyFault (List Token) :=
  match text with
  | [] => .ok []
  | c :: cs =>
    if Text.isBlank c then scan (offset + c.utf8Size) cs
    else if c = '(' then (scan (offset + 1) cs).map (openParen :: ·)
    else if c = ')' then (scan (offset + 1) cs).map (closeParen :: ·)
    else if c = ',' then (scan (offset + 1) cs).map (comma :: ·)
    else if c = '\'' ∨ c = '"' then
      let inside := cs.takeWhile (· ≠ c)
      match h : cs.dropWhile (· ≠ c) with
      | [] => .error (.unterminatedString offset)
      | _ :: rest =>
        have : rest.length < cs.length := by
          have := (List.dropWhile_suffix (l := cs) (· ≠ c)).length_le
          rw [h] at this
          exact this
        (scan (offset + utf8Length inside + 2) rest).map (literal (String.ofList inside) :: ·)
    else if c.isDigit then
      let digits := c :: cs.takeWhile Char.isDigit
      have : (cs.dropWhile Char.isDigit).length ≤ cs.length := (List.dropWhile_suffix _).length_le
      if digitsValue digits ≤ maxNumber then
        (scan (offset + digits.length) (cs.dropWhile Char.isDigit)).map
          (number (digitsValue digits) :: ·)
      else .error (.numberOutOfRange (String.ofList digits))
    else if isWordChar c then
      let letters := c :: cs.takeWhile isWordChar
      have : (cs.dropWhile isWordChar).length ≤ cs.length := (List.dropWhile_suffix _).length_le
      (scan (offset + utf8Length letters) (cs.dropWhile isWordChar)).map
        (word (String.ofList letters) :: ·)
    else .error (.unrecognized (String.ofList [c]))
termination_by text.length

end Token

end ChannelConfig.Policy
