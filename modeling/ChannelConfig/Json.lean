import ChannelConfig.Bytes
import ChannelConfig.NameMap

/-!
# JSON values

The values that inspection shows. The members of an object are in the order of their names.
`Json.compact` writes a value on one line, `Json.pretty` with a line for each member.
-/

set_option autoImplicit false

namespace ChannelConfig

inductive Json where
  | null
  | bool (b : Bool)
  | int (n : Int)
  | str (s : String)
  | arr (items : List Json)
  | obj (members : SortedFrom Json none)

namespace Json

instance : Inhabited Json := ⟨.null⟩
instance : Coe String Json := ⟨.str⟩
instance : Coe Bool Json := ⟨.bool⟩

/-- Of several members of one name the last counts. -/
def object (members : List (String × Json)) : Json := .obj (.ofList members)

def nat (n : Nat) : Json := .int n

def hex (bs : Bytes) : Json := .str bs.toHex

def strings (items : List String) : Json := .arr (items.map .str)

def ofOption {α : Type} (f : α → Json) : Option α → Json
  | none => .null
  | some a => f a

/-! ## Text -/

/-- A quote, a backslash and the control characters are escaped. -/
def escapeChar (c : Char) : List Char :=
  if c = '"' then ['\\', '"']
  else if c = '\\' then ['\\', '\\']
  else if c = '\n' then ['\\', 'n']
  else if c = '\r' then ['\\', 'r']
  else if c = '\t' then ['\\', 't']
  else if c = '\x08' then ['\\', 'b']
  else if c = '\x0c' then ['\\', 'f']
  else if c.toNat < 32 then
    ['\\', 'u', '0', '0', Bytes.hexDigit (c.toNat / 16), Bytes.hexDigit (c.toNat % 16)]
  else [c]

def quote (s : String) : String := "\"" ++ String.ofList (s.toList.flatMap escapeChar) ++ "\""

mutual
def compact : Json → String
  | .null => "null"
  | .bool b => if b then "true" else "false"
  | .int n => toString n
  | .str s => quote s
  | .arr items => "[" ++ ",".intercalate (compactItems items) ++ "]"
  | .obj members => "\x7b" ++ ",".intercalate (compactMembers members) ++ "\x7d"

def compactItems : List Json → List String
  | [] => []
  | item :: items => compact item :: compactItems items

def compactMembers : {lo : Option String} → SortedFrom Json lo → List String
  | _, .nil => []
  | _, .cons name _ value rest => (quote name ++ ":" ++ compact value) :: compactMembers rest
end

/-- Brackets around items, each on a line of its own, two blanks further in. -/
def block (indent : Nat) (left right : String) (items : List String) : String :=
  if items.isEmpty then left ++ right
  else
    let line := "\n" ++ "".pushn ' ' (indent + 2)
    left ++ line ++ ("," ++ line).intercalate items ++ "\n" ++ "".pushn ' ' indent ++ right

mutual
def prettyAt (indent : Nat) : Json → String
  | .arr items => block indent "[" "]" (prettyItems (indent + 2) items)
  | .obj members => block indent "\x7b" "\x7d" (prettyMembers (indent + 2) members)
  | .null => "null"
  | .bool b => if b then "true" else "false"
  | .int n => toString n
  | .str s => quote s

def prettyItems (indent : Nat) : List Json → List String
  | [] => []
  | item :: items => prettyAt indent item :: prettyItems indent items

def prettyMembers (indent : Nat) : {lo : Option String} → SortedFrom Json lo → List String
  | _, .nil => []
  | _, .cons name _ value rest =>
    (quote name ++ ": " ++ prettyAt indent value) :: prettyMembers indent rest
end

def pretty (j : Json) : String := prettyAt 0 j

end Json

end ChannelConfig
