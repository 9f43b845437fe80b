import ChannelConfig.Toml.Scalar
import ChannelConfig.Toml.Table

/-!
# TOML documents

A document is a sequence of lines: a header opens a table, a key and a value put an entry into the
table that is open. `Toml.parse` gives all of it as one table.
-/

set_option autoImplicit false

namespace ChannelConfig.Toml

/-! ## Values -/

/-- Skips blanks, line breaks and comments, as between the items of a list. A comment must end with
its line. -/
def skipLines : (fuel : Nat) → List Char → Option (List Char)
  | 0, cs => some cs
  | fuel + 1, cs =>
    let cs := skipBlanks cs
    match cs with
    | '#' :: _ => (lineBreak (skipComment cs)).bind fun (_, rest) => skipLines fuel rest
    | '\n' :: rest => skipLines fuel rest
    | '\r' :: _ => (lineBreak cs).bind fun (_, rest) => skipLines fuel rest
    | cs => some cs

/-- The items of a list up to its closing bracket. The last one may have a comma after it. -/
def items (value : Reader Datum) : (fuel : Nat) → Reader (List Datum)
  | 0, _ => none
  | fuel + 1, cs => do
    let cs ← skipLines cs.length cs
    if let ']' :: rest := cs then return ([], rest)
    let (d, rest) ← value cs
    let rest ← skipLines rest.length rest
    match rest with
    | ',' :: rest => do
      let (ds, rest) ← items value fuel rest
      return (d :: ds, rest)
    | ']' :: rest => return ([d], rest)
    | _ => none

def keyValue (value : Reader Datum) (cs : List Char) : Option ((List String × Datum) × List Char) := do
  let (path, rest) ← key cs
  match rest with
  | '=' :: rest => do
    let (d, rest) ← value (skipBlanks rest)
    return ((path, d), rest)
  | _ => none

/-- The entries of an inline table up to its closing brace, all on one line. -/
def inlineEntries (value : Reader Datum) : (fuel : Nat) → Entries → Reader Entries
  | 0, _, _ => none
  | fuel + 1, es, cs => do
    let ((path, d), rest) ← keyValue value cs
    let es ← es.assign d true path
    match skipBlanks rest with
    | ',' :: rest => inlineEntries value fuel es rest
    | '\x7d' :: rest => return (es, rest)
    | _ => none

/-- A value, in which others are nested at most that deep. -/
def value : (levels : Nat) → Reader Datum
  | 0, cs => scalar cs
  | levels + 1, cs =>
    match cs with
    | '[' :: rest => (items (value levels) cs.length rest).map fun (ds, rest) => (.list ds, rest)
    | '\x7b' :: rest =>
      match skipBlanks rest with
      | '\x7d' :: rest => some (.table .nil, rest)
      | _ =>
        (inlineEntries (value levels) cs.length .nil rest).map fun (es, rest) =>
          (.table (entriesToData es), rest)
    | cs => scalar cs

/-! ## Lines -/

/-- A document as far as it has been read. -/
structure Draft where
  root : Entries := .nil
  /-- The path of the table that is open. -/
  path : List String := []

/-- The path in a header and the name at its end. -/
def splitLast : List String → Option (List String × String)
  | [] => none
  | [name] => some ([], name)
  | name :: path => (splitLast path).map fun (before, last) => (name :: before, last)

/-- Goes on with the table of a header, once it is opened at its path. -/
def Draft.enter (draft : Draft) (path : List String) (open? : String → Entries → Option Entries) :
    Option Draft := do
  let (before, name) ← splitLast path
  let root ← draft.root.changeAt (open? name) before
  return { root, path }

/-- One line that says something, and what follows its end. -/
def Draft.line (draft : Draft) (cs : List Char) : Option (Draft × List Char) :=
  match cs with
  | '[' :: '[' :: rest => do
    let (path, rest) ← key rest
    match rest with
    | ']' :: ']' :: rest => return (← draft.enter path Entries.openElement, ← lineEnd rest)
    | _ => none
  | '[' :: rest => do
    let (path, rest) ← key rest
    match rest with
    | ']' :: rest => return (← draft.enter path Entries.openTable, ← lineEnd rest)
    | _ => none
  | cs => do
    let ((path, d), rest) ← keyValue (value (depthLimit - 1)) cs
    let rest ← lineEnd rest
    let root ← draft.root.changeAt (·.assign d true path) draft.path
    return ({ draft with root }, rest)

def Draft.lines : (fuel : Nat) → Draft → List Char → Option Draft
  | 0, draft, cs => if cs.isEmpty then some draft else none
  | fuel + 1, draft, cs =>
    match skipBlanks cs with
    | [] => some draft
    | '#' :: rest => (lineEnd ('#' :: rest)).bind (draft.lines fuel)
    | '\n' :: rest => draft.lines fuel rest
    | '\r' :: '\n' :: rest => draft.lines fuel rest
    | cs => do
      let (draft, rest) ← draft.line cs
      draft.lines fuel rest

/-- The table that a text describes. A byte order mark before it does not count. -/
def parse (text : String) : Option Datum :=
  let cs :=
    match text.toList with
    | '\uFEFF' :: cs => cs
    | cs => cs
  (Draft.lines (cs.length + 1) {} cs).map fun draft => .table (entriesToData draft.root)

end ChannelConfig.Toml
