import ChannelConfig.Wire.Varint

/-!
# Records

An encoded message is a sequence of records: a key, which holds a field number and a wire type, and
a body. `serialize` writes records, `parse` reads them back.

Fixed-width words and groups are read past and never written, since no field has them. A group runs
to its own end key and may hold anything, groups included; each open group is one level of nesting.
-/

set_option autoImplicit false

namespace ChannelConfig.Wire

inductive Body where
  | varint (n : Nat)
  | delimited (bytes : Bytes)
  /-- A fixed-width word or a group, whose content nothing here asks for. -/
  | foreign
  deriving DecidableEq, Repr

structure Record where
  number : Nat
  body : Body
  deriving DecidableEq, Repr

/-! ## Writing -/

def Record.encode : Record → Bytes
  | ⟨number, .varint n⟩ => Varint.encode (8 * number) ++ Varint.encode n
  | ⟨number, .delimited bytes⟩ =>
    Varint.encode (8 * number + 2) ++ Varint.encode bytes.length ++ bytes
  | ⟨_, .foreign⟩ => []

def serialize (records : List Record) : Bytes := records.flatMap Record.encode

/-! ## Reading -/

inductive WireType where
  | varint
  | fixed64
  | delimited
  | startGroup
  | endGroup
  | fixed32
  deriving DecidableEq, Repr

def WireType.ofCode? : Nat → Option WireType
  | 0 => some .varint
  | 1 => some .fixed64
  | 2 => some .delimited
  | 3 => some .startGroup
  | 4 => some .endGroup
  | 5 => some .fixed32
  | _ => none

structure Key where
  number : Nat
  wireType : WireType
  deriving DecidableEq, Repr

/-- A key fits 32 bits and its field number is not 0. -/
def readKey (bs : Bytes) : Except DecodeError (Key × Bytes) :=
  match Varint.decode bs with
  | .error e => .error e
  | .ok (code, rest) =>
    if UInt32.size ≤ code ∨ code / 8 = 0 then .error .badKey
    else
      match WireType.ofCode? (code % 8) with
      | some wireType => .ok (⟨code / 8, wireType⟩, rest)
      | none => .error .badKey

/-- The first `n` bytes and the rest. -/
def cut (n : Nat) (bs : Bytes) : Except DecodeError (Bytes × Bytes) :=
  if (bs.take n).length = n then .ok (bs.take n, bs.drop n) else .error .truncated

/-- A length and that many bytes. -/
def readDelimited (bs : Bytes) : Except DecodeError (Bytes × Bytes) :=
  match Varint.decode bs with
  | .error e => .error e
  | .ok (n, rest) => cut n rest

theorem length_lt_of_readKey {bs rest : Bytes} {key : Key} (h : readKey bs = .ok (key, rest)) :
    rest.length < bs.length := by
  unfold readKey at h
  split at h
  · cases h
  · next hd =>
    split at h
    · cases h
    · split at h
      · cases h; exact Varint.length_lt_of_decode hd
      · cases h

theorem length_le_of_cut {n : Nat} {bs taken rest : Bytes} (h : cut n bs = .ok (taken, rest)) :
    rest.length ≤ bs.length := by
  unfold cut at h
  split at h
  · cases h; simp
  · cases h

theorem length_lt_of_readDelimited {bs taken rest : Bytes}
    (h : readDelimited bs = .ok (taken, rest)) : rest.length < bs.length := by
  unfold readDelimited at h
  split at h
  · cases h
  · next hd => exact Nat.lt_of_le_of_lt (length_le_of_cut h) (Varint.length_lt_of_decode hd)

/-- Reads past a body that is no group. -/
def skipFlat (wireType : WireType) (bs : Bytes) : Except DecodeError Bytes :=
  match wireType with
  | .varint => (Varint.decode bs).map (·.2)
  | .fixed64 => (cut 8 bs).map (·.2)
  | .delimited => (readDelimited bs).map (·.2)
  | .fixed32 => (cut 4 bs).map (·.2)
  | .startGroup | .endGroup => .error .unmatchedGroup

theorem length_le_of_skipFlat {wireType : WireType} {bs rest : Bytes}
    (h : skipFlat wireType bs = .ok rest) : rest.length ≤ bs.length := by
  have hmap : ∀ {α : Type} {r : Except DecodeError (α × Bytes)},
      r.map (·.2) = .ok rest → ∃ a, r = .ok (a, rest) := by
    intro α r hr
    cases r with
    | error e => cases hr
    | ok p => cases hr; exact ⟨p.1, rfl⟩
  unfold skipFlat at h
  split at h
  · obtain ⟨_, h⟩ := hmap h; exact Nat.le_of_lt (Varint.length_lt_of_decode h)
  · obtain ⟨_, h⟩ := hmap h; exact length_le_of_cut h
  · obtain ⟨_, h⟩ := hmap h; exact Nat.le_of_lt (length_lt_of_readDelimited h)
  · obtain ⟨_, h⟩ := hmap h; exact length_le_of_cut h
  · cases h
  · cases h

/-- Reads past the content of the open groups, whose field numbers are given innermost first. A
field inside `n` groups needs more than `n` levels of nesting to be left. -/
def skipGroups (levels : Nat) (groups : List Nat) (bs : Bytes) : Except DecodeError Bytes :=
  match groups with
  | [] => .ok bs
  | innermost :: outer =>
    match h : readKey bs with
    | .error e => .error e
    | .ok (key, rest) =>
      have := length_lt_of_readKey h
      if key.wireType = .endGroup then
        if key.number = innermost then skipGroups levels outer rest else .error .unmatchedGroup
      else if levels ≤ outer.length + 1 then .error .tooDeep
      else if key.wireType = .startGroup then
        skipGroups levels (key.number :: innermost :: outer) rest
      else
        match h' : skipFlat key.wireType rest with
        | .error e => .error e
        | .ok rest' =>
          have := length_le_of_skipFlat h'
          skipGroups levels (innermost :: outer) rest'
termination_by bs.length

theorem length_le_of_skipGroups {levels : Nat} {groups : List Nat} {bs rest : Bytes}
    (h : skipGroups levels groups bs = .ok rest) : rest.length ≤ bs.length := by
  fun_induction skipGroups levels groups bs <;> grind [length_lt_of_readKey, length_le_of_skipFlat]

/-- The body of a key. An entry of a map is read as delimited, whatever its key says. -/
def readBody (levels : Nat) (isEntry : Nat → Bool) (key : Key) (bs : Bytes) :
    Except DecodeError (Body × Bytes) :=
  if isEntry key.number then (readDelimited bs).map fun (bytes, rest) => (.delimited bytes, rest)
  else
    match key.wireType with
    | .varint => (Varint.decode bs).map fun (n, rest) => (.varint n, rest)
    | .delimited => (readDelimited bs).map fun (bytes, rest) => (.delimited bytes, rest)
    | .fixed64 => (cut 8 bs).map fun (_, rest) => (.foreign, rest)
    | .fixed32 => (cut 4 bs).map fun (_, rest) => (.foreign, rest)
    | .startGroup => (skipGroups levels [key.number] bs).map fun rest => (.foreign, rest)
    | .endGroup => .error .unmatchedGroup

theorem length_le_of_readBody {levels : Nat} {isEntry : Nat → Bool} {key : Key}
    {bs rest : Bytes} {body : Body}
    (h : readBody levels isEntry key bs = .ok (body, rest)) : rest.length ≤ bs.length := by
  have hmap : ∀ {α : Type} {r : Except DecodeError (α × Bytes)} {f : α → Body},
      r.map (fun p => (f p.1, p.2)) = .ok (body, rest) → ∃ a, r = .ok (a, rest) := by
    intro α r f hr
    cases r with
    | error e => cases hr
    | ok p => cases hr; exact ⟨p.1, rfl⟩
  unfold readBody at h
  split at h
  · obtain ⟨_, h⟩ := hmap h; exact Nat.le_of_lt (length_lt_of_readDelimited h)
  · split at h
    · obtain ⟨_, h⟩ := hmap h; exact Nat.le_of_lt (Varint.length_lt_of_decode h)
    · obtain ⟨_, h⟩ := hmap h; exact Nat.le_of_lt (length_lt_of_readDelimited h)
    · obtain ⟨_, h⟩ := hmap (f := fun _ => .foreign) h; exact length_le_of_cut h
    · obtain ⟨_, h⟩ := hmap (f := fun _ => .foreign) h; exact length_le_of_cut h
    · generalize hs : skipGroups levels [key.number] bs = r at h
      cases r with
      | error e => cases h
      | ok r => cases h; exact length_le_of_skipGroups hs
    · cases h

/-- Reads records to the end of the bytes, at the given number of levels left. -/
def parse (levels : Nat) (isEntry : Nat → Bool) (bs : Bytes) : Except DecodeError (List Record) :=
  if bs.isEmpty then .ok []
  else
    match h : readKey bs with
    | .error e => .error e
    | .ok (key, rest) =>
      match h' : readBody levels isEntry key rest with
      | .error e => .error e
      | .ok (body, rest') =>
        have := Nat.lt_of_le_of_lt (length_le_of_readBody h') (length_lt_of_readKey h)
        (parse levels isEntry rest').map (⟨key.number, body⟩ :: ·)
termination_by bs.length

end ChannelConfig.Wire
