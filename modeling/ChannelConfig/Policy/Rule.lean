import ChannelConfig.Wire.Format

/-!
# Signature policies

A rule is a tree of gates over identities: a leaf asks for a signature by the identity of that
number, a gate asks for so many of its rules. A rule read from the wire may also have no type.
-/

set_option autoImplicit false

namespace ChannelConfig

open Wire

inductive SignaturePolicy where
  | untyped
  | signedBy (identity : Int32)
  | nOutOf (n : Int32) (rules : List SignaturePolicy)
  deriving Repr, Inhabited

/-- A gate as a message of its own. -/
structure NOutOf where
  n : Int32 := 0
  rules : List SignaturePolicy := []
  deriving Repr

mutual
def SignaturePolicy.decEq : (a b : SignaturePolicy) → Decidable (a = b)
  | .untyped, .untyped => isTrue rfl
  | .signedBy i, .signedBy j =>
    if h : i = j then isTrue (by rw [h]) else isFalse (by simp [h])
  | .nOutOf m rs, .nOutOf n ss =>
    if h : m = n then
      match SignaturePolicy.decEqList rs ss with
      | isTrue hr => isTrue (by rw [h, hr])
      | isFalse hr => isFalse (by simp [hr])
    else isFalse (by simp [h])
  | .untyped, .signedBy _ | .untyped, .nOutOf .. | .signedBy _, .untyped
  | .signedBy _, .nOutOf .. | .nOutOf .., .untyped | .nOutOf .., .signedBy _ =>
    isFalse nofun

def SignaturePolicy.decEqList : (as bs : List SignaturePolicy) → Decidable (as = bs)
  | [], [] => isTrue rfl
  | a :: as, b :: bs =>
    match SignaturePolicy.decEq a b with
    | isTrue h =>
      match SignaturePolicy.decEqList as bs with
      | isTrue hs => isTrue (by rw [h, hs])
      | isFalse hs => isFalse (by simp [hs])
    | isFalse h => isFalse (by simp [h])
  | [], _ :: _ | _ :: _, [] => isFalse nofun
end

instance : DecidableEq SignaturePolicy := SignaturePolicy.decEq

deriving instance DecidableEq for NOutOf

/-! ## On the wire -/

/-- The fields of a gate whose rules have the given content. -/
def NOutOf.fields {R : Type} (rule : Content R) : Fields (Int32 × List R × Unit) :=
  .cons 1 .int32 <| .cons 2 (.repeated rule) .nil

namespace SignaturePolicy

mutual
def encode : SignaturePolicy → Bytes
  | .untyped => []
  | .signedBy identity => serialize [⟨1, .varint identity.toInt64.toUInt64.toNat⟩]
  | .nOutOf n rules =>
    serialize [⟨2, .delimited ((NOutOf.fields .bytes).encode (n, encodeAll rules, ()))⟩]

def encodeAll : List SignaturePolicy → List Bytes
  | [] => []
  | rule :: rules => encode rule :: encodeAll rules
end

mutual
/-- The levels of nesting below a rule: a gate is one, and each rule in it another one. -/
def nesting : SignaturePolicy → Nat
  | .untyped | .signedBy _ => 0
  | .nOutOf _ rules => nestingAll rules + 1

def nestingAll : List SignaturePolicy → Nat
  | [] => 0
  | rule :: rules => max (nesting rule + 1) (nestingAll rules)
end

/-- A leaf replaces what was read before; a gate merges with a gate read before and replaces a
leaf. -/
def absorb (rule : Content SignaturePolicy) (levels : Nat) (before : SignaturePolicy) :
    Record → Except DecodeError SignaturePolicy
  | ⟨1, .varint n⟩ => .ok (.signedBy (Int32.ofNat n))
  | ⟨2, .delimited bs⟩ =>
    match levels with
    | 0 => .error .tooDeep
    | levels + 1 =>
      let gate := match before with
        | .nOutOf n rules => (n, rules, ())
        | _ => (NOutOf.fields rule).empty
      ((NOutOf.fields rule).merge levels gate bs).map fun (n, rules, _) => .nOutOf n rules
  | ⟨1, _⟩ | ⟨2, _⟩ => .error .wrongWireType
  | _ => if levels = 0 then .error .tooDeep else .ok before

/-- Reads on top of a rule, with the given reading of the rules inside. -/
def mergeWith (rule : Content SignaturePolicy) (levels : Nat) (before : SignaturePolicy)
    (bs : Bytes) : Except DecodeError SignaturePolicy :=
  match parse levels (fun _ => false) bs with
  | .error e => .error e
  | .ok records => records.foldlM (absorb rule levels) before

/-- A gate and its rules are two levels, so fewer leave no room for rules inside. -/
def merge : (levels : Nat) → SignaturePolicy → Bytes → Except DecodeError SignaturePolicy
  | levels + 2 => mergeWith (.nested .untyped encode nesting fun _ => merge levels) (levels + 2)
  | levels => mergeWith (.nested .untyped encode nesting fun _ _ _ => .error .tooDeep) levels

end SignaturePolicy

instance : Message SignaturePolicy where
  codec := ⟨.untyped, SignaturePolicy.encode, SignaturePolicy.merge, SignaturePolicy.nesting⟩

instance : Message NOutOf where
  codec := .ofFields (NOutOf.fields (message SignaturePolicy))
    (fun m => (m.n, m.rules, ()))
    (fun (n, rules, _) => { n, rules })

end ChannelConfig
