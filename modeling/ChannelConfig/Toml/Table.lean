import ChannelConfig.Datum

/-!
# Tables under construction

A document defines its tables piece by piece, and each table only once: by a header, as a step on
the way to another header, or by the parts of a dotted key. How a table came about decides who may
still add to it.
-/

set_option autoImplicit false

namespace ChannelConfig.Toml

inductive Origin where
  /-- Defined by a header of its own, or the root. -/
  | header
  /-- On the way to the table of some header; may get a header of its own later. -/
  | implied
  /-- Made by dotted keys, and open to more of them. -/
  | dotted
  deriving DecidableEq, Repr

inductive Item where
  | value (d : Datum)
  | table (origin : Origin) (entries : SortedFrom Item none)
  /-- The tables under one double header, the last one first. -/
  | tables (elements : List (SortedFrom Item none))

abbrev Entries : Type := NameMap Item

namespace Entries

/-- Puts a value under a dotted key. The tables on the way must have been made by dotted keys
(`direct` says this of the table itself), and the key must be free. -/
def assign (d : Datum) : (direct : Bool) → Entries → List String → Option Entries
  | _, _, [] => none
  | direct, es, [name] =>
    if direct && !es.contains name then some (es.insert name (.value d)) else none
  | _, es, name :: path =>
    match es.find? name with
    | none => (assign d true .nil path).map fun inner => es.insert name (.table .dotted inner)
    | some (.table origin inner) =>
      if origin = .header then none
      else
        (assign d (origin = .dotted) inner path).map fun inner => es.insert name (.table origin inner)
    | some (.tables (last :: before)) =>
      (assign d false last path).map fun last => es.insert name (.tables (last :: before))
    | some _ => none

/-- Changes the table at a path, in a list of tables the last one. A table that is missing on the
way is implied. -/
def changeAt (change : Entries → Option Entries) : Entries → List String → Option Entries
  | es, [] => change es
  | es, name :: path =>
    match es.find? name with
    | none => (changeAt change .nil path).map fun inner => es.insert name (.table .implied inner)
    | some (.table origin inner) =>
      (changeAt change inner path).map fun inner => es.insert name (.table origin inner)
    | some (.tables (last :: before)) =>
      (changeAt change last path).map fun last => es.insert name (.tables (last :: before))
    | some _ => none

/-- Opens the table of a header. -/
def openTable (name : String) (es : Entries) : Option Entries :=
  match es.find? name with
  | none => some (es.insert name (.table .header .nil))
  | some (.table .implied inner) => some (es.insert name (.table .header inner))
  | some _ => none

/-- Opens one more table under a double header. -/
def openElement (name : String) (es : Entries) : Option Entries :=
  match es.find? name with
  | none => some (es.insert name (.tables [.nil]))
  | some (.tables elements) => some (es.insert name (.tables (.nil :: elements)))
  | some _ => none

end Entries

/-! ## Finished tables -/

mutual
def Item.toDatum : Item → Datum
  | .value d => d
  | .table _ entries => .table (entriesToData entries)
  | .tables elements => .list (elementsToData elements).reverse

def entriesToData : {lo : Option String} → SortedFrom Item lo → SortedFrom Datum lo
  | _, .nil => .nil
  | _, .cons name above item rest => .cons name above item.toDatum (entriesToData rest)

def elementsToData : List (SortedFrom Item none) → List Datum
  | [] => []
  | element :: elements => .table (entriesToData element) :: elementsToData elements
end

end ChannelConfig.Toml
