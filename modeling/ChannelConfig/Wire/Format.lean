import ChannelConfig.Wire.Record
import ChannelConfig.NameMap

/-!
# Message formats

A message is a tuple of fields under numbers. A `Field` says how its value is written as bodies
and how one more body changes the value read so far; `Fields` puts fields side by side; a
`Codec` is a whole message.

* What has its empty value is not written, except that a present sub-message always is.
* Fields are written in the order of the list, the entries of a map in the order of their names.
* Reading starts from the empty message and takes records in turn: a single value is replaced, a
  list grows, sub-messages merge, an entry of a map replaces the one of its name.
* Each sub-message and each entry of a map is one level of nesting; `levels` says how many are left,
  and `nesting` how many a value takes as it is written.
-/

set_option autoImplicit false

namespace ChannelConfig.Wire

/-! ## Content of delimited bodies -/

/-- How a value is held in a delimited body. `merge` reads on top of an earlier value. -/
structure Content (T : Type) where
  empty : T
  toBytes : T → Bytes
  merge : (levels : Nat) → T → Bytes → Except DecodeError T
  nesting : T → Nat := fun _ => 0

namespace Content

def bytes : Content Bytes where
  empty := []
  toBytes bs := bs
  merge _ _ bs := .ok bs

def text : Content String where
  empty := ""
  toBytes := Bytes.ofText
  merge _ _ bs :=
    match Bytes.text? bs with
    | some s => .ok s
    | none => .error .badText

/-- A sub-message, whose own reading has one level less. -/
def nested {M : Type} (empty : M) (encode : M → Bytes) (nesting : M → Nat)
    (merge : (levels : Nat) → M → Bytes → Except DecodeError M) : Content M where
  empty := empty
  toBytes := encode
  merge levels m bs :=
    match levels with
    | 0 => .error .tooDeep
    | levels + 1 => merge levels m bs
  nesting m := nesting m + 1

end Content

/-! ## Fields -/

/-- How the value of one field is written and read. -/
structure Field (T : Type) where
  empty : T
  bodies : T → List Body
  absorb : (levels : Nat) → T → Body → Except DecodeError T
  nesting : T → Nat := fun _ => 0
  /-- Whether each body is an entry of a map. -/
  isMap : Bool := false

namespace Field

/-- A number, left out if 0. -/
def number {T : Type} (toNat : T → Nat) (ofNat : Nat → T) : Field T where
  empty := ofNat 0
  bodies t := if toNat t = 0 then [] else [.varint (toNat t)]
  absorb _ _
    | .varint n => .ok (ofNat n)
    | _ => .error .wrongWireType

def uint64 : Field UInt64 := number UInt64.toNat UInt64.ofNat

/-- A longer number is cut to its low 32 bits. -/
def uint32 : Field UInt32 := number UInt32.toNat UInt32.ofNat

/-- A negative number is written as its 64-bit complement. -/
def int64 : Field Int64 := number (fun x => x.toUInt64.toNat) Int64.ofNat

/-- A negative number is written as its 64-bit complement, and read by its low 32 bits. -/
def int32 : Field Int32 := number (fun x => x.toInt64.toUInt64.toNat) Int32.ofNat

/-- Every number but 0 is read as true. -/
def bool : Field Bool := number Bool.toNat (fun n => n ≠ 0)

variable {T : Type}

/-- A single value, left out if its content is no bytes. -/
def single (c : Content T) : Field T where
  empty := c.empty
  bodies t :=
    match c.toBytes t with
    | [] => []
    | bs => [.delimited bs]
  absorb levels t
    | .delimited bs => c.merge levels t bs
    | _ => .error .wrongWireType
  nesting t := if c.toBytes t = [] then 0 else c.nesting t

def bytes : Field Bytes := single .bytes
def text : Field String := single .text

/-- A value that may be absent; if present it is written even when empty. -/
def optional (c : Content T) : Field (Option T) where
  empty := none
  bodies t := (t.map fun t => .delimited (c.toBytes t)).toList
  absorb levels t
    | .delimited bs => (c.merge levels (t.getD c.empty) bs).map some
    | _ => .error .wrongWireType
  nesting
    | some t => c.nesting t
    | none => 0

def repeated (c : Content T) : Field (List T) where
  empty := []
  bodies ts := ts.map fun t => .delimited (c.toBytes t)
  absorb levels ts
    | .delimited bs => (c.merge levels c.empty bs).map fun t => ts ++ [t]
    | _ => .error .wrongWireType
  nesting ts := ts.foldr (fun t n => max (c.nesting t) n) 0

end Field

/-! ## Messages -/

/-- Fields side by side, in the order they are written. -/
inductive Fields : Type → Type 1 where
  | nil : Fields Unit
  | cons {T Ts : Type} (number : Nat) (field : Field T) (rest : Fields Ts) : Fields (T × Ts)

namespace Fields

def empty : {Ts : Type} → Fields Ts → Ts
  | _, .nil => ()
  | _, .cons _ field rest => (field.empty, rest.empty)

def records : {Ts : Type} → Fields Ts → Ts → List Record
  | _, .nil, _ => []
  | _, .cons number field rest, (t, ts) =>
    (field.bodies t).map (Record.mk number) ++ rest.records ts

def nesting : {Ts : Type} → Fields Ts → Ts → Nat
  | _, .nil, _ => 0
  | _, .cons _ field rest, (t, ts) => max (field.nesting t) (rest.nesting ts)

def isMap (number : Nat) : {Ts : Type} → Fields Ts → Bool
  | _, .nil => false
  | _, .cons n field rest => if number = n then field.isMap else rest.isMap number

/-- A field that is not in the list is ignored, provided a level is left. -/
def absorb (levels : Nat) : {Ts : Type} → Fields Ts → Ts → Record → Except DecodeError Ts
  | _, .nil, _, _ => if levels = 0 then .error .tooDeep else .ok ()
  | _, .cons number field rest, (t, ts), record =>
    if record.number = number then (field.absorb levels t record.body).map (·, ts)
    else (rest.absorb levels ts record).map (t, ·)

variable {Ts : Type}

def encode (fields : Fields Ts) (ts : Ts) : Bytes := serialize (fields.records ts)

/-- Reads records on top of an earlier value. -/
def merge (fields : Fields Ts) (levels : Nat) (ts : Ts) (bs : Bytes) : Except DecodeError Ts :=
  match parse levels (fun number => fields.isMap number) bs with
  | .error e => .error e
  | .ok records => records.foldlM (fields.absorb levels) ts

end Fields

namespace Field

variable {V : Type}

/-- An entry of a map is a message of its name and its value. -/
def entry (c : Content V) : Fields (String × V × Unit) :=
  .cons 1 text <| .cons 2 (single c) .nil

/-- A map, written as one entry after the other. -/
def map (c : Content V) : Field (NameMap V) where
  empty := .nil
  bodies m := m.toList.map fun (name, v) => .delimited ((entry c).encode (name, v, ()))
  absorb levels m
    | .delimited bs =>
      match levels with
      | 0 => .error .tooDeep
      | levels + 1 =>
        ((entry c).merge levels (entry c).empty bs).map fun (name, v, _) => m.insert name v
    | _ => .error .wrongWireType
  nesting m := m.toList.foldr (fun (name, v) n => max ((entry c).nesting (name, v, ()) + 1) n) 0
  isMap := true

end Field

/-- How a message is written and read; `merge` reads on top of an earlier message. -/
structure Codec (M : Type) where
  empty : M
  encode : M → Bytes
  merge : (levels : Nat) → M → Bytes → Except DecodeError M
  nesting : M → Nat

namespace Codec

/-- The message as the tuple of its fields. -/
def ofFields {M Ts : Type} (fields : Fields Ts) (toTuple : M → Ts) (ofTuple : Ts → M) :
    Codec M where
  empty := ofTuple fields.empty
  encode m := fields.encode (toTuple m)
  merge levels m bs := (fields.merge levels (toTuple m) bs).map ofTuple
  nesting m := fields.nesting (toTuple m)

/-- The message as the content of a field of another one. -/
def content {M : Type} (c : Codec M) : Content M :=
  .nested c.empty c.encode c.nesting c.merge

end Codec

/-- The levels of nesting below an outermost message. -/
def maxLevels : Nat := 100

class Message (M : Type) where
  codec : Codec M

variable {M : Type} [Message M]

def encode (m : M) : Bytes := Message.codec.encode m

def decode (bs : Bytes) : Except DecodeError M :=
  Message.codec.merge maxLevels Message.codec.empty bs

/-- The levels of nesting below a message, as it is written. -/
def nesting (m : M) : Nat := Message.codec.nesting m

/-- A message of type `M` as the content of a field. -/
def message (M : Type) [Message M] : Content M := (Message.codec (M := M)).content

end ChannelConfig.Wire
