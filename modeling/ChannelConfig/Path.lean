/-!
# Paths

A path is a text with components between slashes. Empty components and points count for nothing,
except a point that a relative path starts with; two paths are the same if their components are.
-/

set_option autoImplicit false

namespace ChannelConfig

structure Path where
  text : String
  deriving DecidableEq, Repr, Inhabited

namespace Path

inductive Component where
  | root
  | here
  | up
  | name (text : String)
  deriving DecidableEq, Repr

def isAbsolute (p : Path) : Bool := p.text.toList.head? = some '/'

def isEmpty (p : Path) : Bool := p.text.isEmpty

def endsWithSlash (p : Path) : Bool := p.text.toList.getLast? = some '/'

/-- The path as seen from a base. An absolute path stays as it is. -/
def join (base p : Path) : Path :=
  if p.isAbsolute || base.isEmpty then p
  else if base.endsWithSlash then ⟨base.text ++ p.text⟩
  else ⟨base.text ++ "/" ++ p.text⟩

def splitSlashes : List Char → List (List Char)
  | [] => [[]]
  | c :: cs =>
    if c = '/' then [] :: splitSlashes cs
    else
      match splitSlashes cs with
      | part :: parts => (c :: part) :: parts
      | [] => [[c]]

def component? (part : List Char) : Option Component :=
  if part.isEmpty then none
  else if part = ['.'] then some .here
  else if part = ['.', '.'] then some .up
  else some (.name (String.ofList part))

/-- The components in the order of the text, all points among them. -/
def steps (p : Path) : List Component :=
  let names := (splitSlashes p.text.toList).filterMap component?
  if p.isAbsolute then .root :: names else names

/-- The steps without points, except a point that comes first. -/
def components (p : Path) : List Component :=
  match p.steps with
  | [] => []
  | first :: rest => first :: rest.filter (· ≠ .here)

/-- Whether two texts name the same path. -/
def same (p q : Path) : Bool := p.components = q.components

/-! ## The parent -/

/-- The text, given from its end, without trailing slashes and points. -/
def trimEnd (reversed : List Char) : List Char :=
  match reversed with
  | '/' :: rest => trimEnd rest
  | ['.'] => []
  | '.' :: '/' :: rest => trimEnd rest
  | _ => reversed

/-- The path without its last component, if it has one besides the root. -/
def parent? (p : Path) : Option Path :=
  let (start, rest) :=
    match p.text.toList with
    | '/' :: rest => (['/'], rest)
    | ['.'] => (['.'], [])
    | '.' :: '/' :: rest => (['.'], '/' :: rest)
    | cs => ([], cs)
  match trimEnd rest.reverse with
  | [] => if start = ['.'] then some ⟨""⟩ else none
  | reversed => some ⟨String.ofList (start ++ (trimEnd (reversed.dropWhile (· ≠ '/'))).reverse)⟩

end Path

end ChannelConfig
