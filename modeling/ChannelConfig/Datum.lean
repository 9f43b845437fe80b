import ChannelConfig.NameMap

/-!
# Data

`Datum` is data without a type of its own: what a document holds before it is read as something.
The functions below read it; each is `none` where the data do not fit.
-/

set_option autoImplicit false

namespace ChannelConfig

inductive Datum where
  | null
  | bool (b : Bool)
  | int (n : Int)
  /-- A number that is no integer, or one beyond 64 bits, as written. -/
  | decimal (text : String)
  | text (s : String)
  | list (items : List Datum)
  | table (entries : SortedFrom Datum none)

namespace Datum

instance : Inhabited Datum := ⟨.null⟩

variable {α : Type}

/-! ## Plain values -/

def asBool : Datum → Option Bool
  | .bool b => some b
  | _ => none

def asText : Datum → Option String
  | .text s => some s
  | _ => none

/-- An integer between two bounds, ends included. -/
def asInt (least greatest : Int) : Datum → Option Int
  | .int n => if least ≤ n ∧ n ≤ greatest then some n else none
  | _ => none

def asUInt32 (d : Datum) : Option UInt32 :=
  (d.asInt 0 (UInt32.size - 1)).map fun n => UInt32.ofNat n.toNat

def asUInt64 (d : Datum) : Option UInt64 :=
  (d.asInt 0 (UInt64.size - 1)).map fun n => UInt64.ofNat n.toNat

def asInt32 (d : Datum) : Option Int32 := (d.asInt (-2147483648) 2147483647).map Int32.ofInt

/-! ## Collections -/

def asList (read : Datum → Option α) : Datum → Option (List α)
  | .list items => items.mapM read
  | _ => none

def entriesM (read : Datum → Option α) :
    {lo : Option String} → SortedFrom Datum lo → Option (SortedFrom α lo)
  | _, .nil => some .nil
  | _, .cons name above d rest => do
    let a ← read d
    let as ← entriesM read rest
    return .cons name above a as

def asMap (read : Datum → Option α) : Datum → Option (NameMap α)
  | .table entries => entriesM read entries
  | _ => none

/-- Null is no value. -/
def asOption (read : Datum → Option α) : Datum → Option (Option α)
  | .null => some none
  | d => (read d).map some

/-! ## Records -/

/-- Whether a list may hold more than the fields of the record that is read from it. -/
inductive Surplus where
  | ignored
  | refused
  deriving DecidableEq, Repr

/-- The fields of a record: those of a table by their names, those of a list in the given order. -/
def fields (surplus : Surplus) (names : List String) : Datum → Option (String → Option Datum)
  | .table entries => some fun name => entries.find? name
  | .list items =>
    if surplus = .refused ∧ names.length < items.length then none
    else some fun name => (names.zip items).lookup name
  | _ => none

/-- A field that must be there. -/
def required (read : Datum → Option α) (field : Option Datum) : Option α := field.bind read

/-- A field that has a value of its own where it is missing. -/
def orElse (missing : α) (read : Datum → Option α) : Option Datum → Option α
  | none => some missing
  | some d => read d

end Datum

end ChannelConfig
