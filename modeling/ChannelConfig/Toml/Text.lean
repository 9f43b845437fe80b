/-!
# Characters, strings and keys of TOML

A reader takes what it can from the front of a text and returns the rest, or is `none` where the
text does not begin with what it reads. Strings stand in double quotes, with escapes, or in single
quotes, without; three quotes let them go over several lines.
-/

set_option autoImplicit false

namespace ChannelConfig.Toml

abbrev Reader (α : Type) : Type := List Char → Option (α × List Char)

/-! ## Characters -/

def isBlank (c : Char) : Bool := c = ' ' || c = '\t'

/-- Whether the character may stand in a comment or, quotes and backslashes apart, in a string. -/
def isPrintable (c : Char) : Bool := c = '\t' || (' ' ≤ c && c ≠ '\x7f')

def isLetterOrDigit (c : Char) : Bool := c.isAlpha || c.isDigit

def isKeyChar (c : Char) : Bool := isLetterOrDigit c || c = '-' || c = '_'

def isHexDigit (c : Char) : Bool :=
  c.isDigit || ('a' ≤ c && c ≤ 'f') || ('A' ≤ c && c ≤ 'F')

/-- The value of a digit to base 16. -/
def digitValue (c : Char) : Nat :=
  if c.isDigit then c.toNat - 48 else if 'a' ≤ c then c.toNat - 87 else c.toNat - 55

def ofDigits (base : Nat) (digits : List Char) : Nat :=
  digits.foldl (fun n c => n * base + digitValue c) 0

def skipBlanks (cs : List Char) : List Char := cs.dropWhile isBlank

/-- A line feed, with or without a carriage return before it. -/
def lineBreak : Reader Unit
  | '\n' :: rest => some ((), rest)
  | '\r' :: '\n' :: rest => some ((), rest)
  | _ => none

/-- What follows a comment, if one stands here. -/
def skipComment : List Char → List Char
  | '#' :: rest => rest.dropWhile isPrintable
  | cs => cs

/-- The end of a line: blanks, maybe a comment, and a line break or the end of the text. -/
def lineEnd (cs : List Char) : Option (List Char) :=
  match skipComment (skipBlanks cs) with
  | [] => some []
  | rest => (lineBreak rest).map (·.2)

/-! ## Strings -/

/-- The character with this number in hexadecimal, unless there is none. -/
def escapedChar (digits : List Char) : Option Char :=
  let n := ofDigits 16 digits
  if digits.all isHexDigit && decide n.isValidChar then some (Char.ofNat n) else none

/-- What stands for itself after a backslash, or for a control character. -/
def shortEscape : Char → Option Char
  | 'b' => some '\x08'
  | 't' => some '\t'
  | 'n' => some '\n'
  | 'f' => some '\x0c'
  | 'r' => some '\r'
  | '"' => some '"'
  | '\\' => some '\\'
  | _ => none

def push (c : Char) (read : Option (List Char × List Char)) : Option (List Char × List Char) :=
  read.map fun (s, rest) => (c :: s, rest)

/-- The rest of a string in double quotes, its closing quote included. -/
def basicBody : Reader (List Char)
  | '"' :: rest => some ([], rest)
  | '\\' :: 'u' :: a :: b :: c :: d :: rest =>
    (escapedChar [a, b, c, d]).bind fun e => push e (basicBody rest)
  | '\\' :: 'U' :: a :: b :: c :: d :: e :: f :: g :: h :: rest =>
    (escapedChar [a, b, c, d, e, f, g, h]).bind fun e => push e (basicBody rest)
  | '\\' :: c :: rest => (shortEscape c).bind fun e => push e (basicBody rest)
  | c :: rest => if isPrintable c && c ≠ '\\' then push c (basicBody rest) else none
  | [] => none

/-- The rest of a string in single quotes, its closing quote included. -/
def literalBody : Reader (List Char)
  | '\'' :: rest => some ([], rest)
  | c :: rest => if isPrintable c then push c (literalBody rest) else none
  | [] => none

/-- Whether only blanks come before the end of the line, where there is one. -/
def endsLine (cs : List Char) : Bool := (lineBreak (skipBlanks cs)).isSome

/-- The rest of a string over several lines in double quotes. After a backslash at the end of a line
(`joining`) blanks and line breaks do not count. Up to two quotes may stand right before the closing
ones. -/
def basicLines : (joining : Bool) → Reader (List Char)
  | true, '\r' :: '\n' :: rest => basicLines true rest
  | true, '\n' :: rest => basicLines true rest
  | true, ' ' :: rest => basicLines true rest
  | true, '\t' :: rest => basicLines true rest
  | _, '"' :: '"' :: '"' :: '"' :: '"' :: rest => some (['"', '"'], rest)
  | _, '"' :: '"' :: '"' :: '"' :: rest => some (['"'], rest)
  | _, '"' :: '"' :: '"' :: rest => some ([], rest)
  | _, '\\' :: 'u' :: a :: b :: c :: d :: rest =>
    (escapedChar [a, b, c, d]).bind fun e => push e (basicLines false rest)
  | _, '\\' :: 'U' :: a :: b :: c :: d :: e :: f :: g :: h :: rest =>
    (escapedChar [a, b, c, d, e, f, g, h]).bind fun e => push e (basicLines false rest)
  | _, '\\' :: c :: rest =>
    if endsLine (c :: rest) then basicLines true (c :: rest)
    else (shortEscape c).bind fun e => push e (basicLines false rest)
  | _, '\r' :: '\n' :: rest => push '\n' (basicLines false rest)
  | _, '\n' :: rest => push '\n' (basicLines false rest)
  | _, c :: rest => if isPrintable c && c ≠ '\\' then push c (basicLines false rest) else none
  | _, [] => none

/-- The rest of a string over several lines in single quotes. -/
def literalLines : Reader (List Char)
  | '\'' :: '\'' :: '\'' :: '\'' :: '\'' :: rest => some (['\'', '\''], rest)
  | '\'' :: '\'' :: '\'' :: '\'' :: rest => some (['\''], rest)
  | '\'' :: '\'' :: '\'' :: rest => some ([], rest)
  | '\r' :: '\n' :: rest => push '\n' (literalLines rest)
  | '\n' :: rest => push '\n' (literalLines rest)
  | c :: rest => if isPrintable c then push c (literalLines rest) else none
  | [] => none

/-- A line break right after the opening quotes does not count. -/
def skipLineBreak (cs : List Char) : List Char := ((lineBreak cs).map (·.2)).getD cs

def string (cs : List Char) : Option (String × List Char) :=
  let read : Option (List Char × List Char) :=
    match cs with
    | '"' :: '"' :: '"' :: rest => basicLines false (skipLineBreak rest)
    | '"' :: rest => basicBody rest
    | '\'' :: '\'' :: '\'' :: rest => literalLines (skipLineBreak rest)
    | '\'' :: rest => literalBody rest
    | _ => none
  read.map fun (s, rest) => (String.ofList s, rest)

/-! ## Keys -/

/-- One part of a key: bare, or a string on one line. -/
def keyPart : Reader String
  | '"' :: rest => (basicBody rest).map fun (s, rest) => (String.ofList s, rest)
  | '\'' :: rest => (literalBody rest).map fun (s, rest) => (String.ofList s, rest)
  | cs =>
    match cs.takeWhile isKeyChar with
    | [] => none
    | s => some (String.ofList s, cs.dropWhile isKeyChar)

/-- How deep values may nest, and how many parts a key may have, both plus one. -/
def depthLimit : Nat := 80

/-- At most the given number of parts with points between them, blanks around each. -/
def keyParts : (most : Nat) → Reader (List String)
  | 0, _ => none
  | most + 1, cs =>
    match keyPart (skipBlanks cs) with
    | none => none
    | some (part, rest) =>
      match skipBlanks rest with
      | '.' :: rest => (keyParts most rest).map fun (parts, rest) => (part :: parts, rest)
      | rest => some ([part], rest)

def key : Reader (List String) := keyParts (depthLimit - 1)

end ChannelConfig.Toml
