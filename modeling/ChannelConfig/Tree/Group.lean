import ChannelConfig.Policy.Message

/-!
# The configuration tree

A channel's configuration is a tree of groups. A group holds named values, named policies and named
child groups; it and each of its leaves has a version and names the policy that governs its change.
-/

set_option autoImplicit false

namespace ChannelConfig

open Wire

/-- A leaf of the tree. -/
structure Leaf (α : Type) where
  version : UInt64 := 0
  content : α
  modPolicy : String := ""
  deriving DecidableEq, Repr

/-- An encoded setting. -/
abbrev ConfigValue : Type := Leaf Bytes

abbrev ConfigPolicy : Type := Leaf (Option Policy)

instance : Message ConfigValue where
  codec := .ofFields (.cons 1 .uint64 <| .cons 2 .bytes <| .cons 3 .text .nil)
    (fun m => (m.version, m.content, m.modPolicy, ()))
    (fun (version, content, modPolicy, _) => { version, content, modPolicy })

instance : Message ConfigPolicy where
  codec := .ofFields
    (.cons 1 .uint64 <| .cons 2 (.optional (message Policy)) <| .cons 3 .text .nil)
    (fun m => (m.version, m.content, m.modPolicy, ()))
    (fun (version, content, modPolicy, _) => { version, content, modPolicy })

structure Group where
  version : UInt64 := 0
  groups : SortedFrom Group none := .nil
  values : NameMap ConfigValue := .nil
  policies : NameMap ConfigPolicy := .nil
  modPolicy : String := ""

instance : Inhabited Group := ⟨{}⟩

namespace Group

/-! ## Equality -/

mutual
def decEq : (a b : Group) → Decidable (a = b)
  | ⟨v, gs, vs, ps, m⟩, ⟨v', gs', vs', ps', m'⟩ =>
    if hv : v = v' then
      if hvs : vs.toList = vs'.toList then
        if hps : ps.toList = ps'.toList then
          if hm : m = m' then
            match decEqMap gs gs' with
            | isTrue hgs => isTrue (by
                rw [hv, hgs, SortedFrom.toList_inj.1 hvs, SortedFrom.toList_inj.1 hps, hm])
            | isFalse hgs => isFalse (by simp [hgs])
          else isFalse (by simp [hm])
        else isFalse (by simp only [mk.injEq]; rintro ⟨-, -, -, rfl, -⟩; exact hps rfl)
      else isFalse (by simp only [mk.injEq]; rintro ⟨-, -, rfl, -, -⟩; exact hvs rfl)
    else isFalse (by simp [hv])

def decEqMap : {lo : Option String} → (a b : SortedFrom Group lo) → Decidable (a = b)
  | _, .nil, .nil => isTrue rfl
  | _, .nil, .cons .. => isFalse nofun
  | _, .cons .., .nil => isFalse nofun
  | _, .cons n _ g rest, .cons n' _ g' rest' =>
    if hn : n = n' then
      match decEq g g' with
      | isTrue hg =>
        match decEqMap rest (hn ▸ rest') with
        | isTrue hr => isTrue (by subst hn; rw [hg, hr])
        | isFalse hr => isFalse (by subst hn; simpa [hg] using hr)
      | isFalse hg => isFalse (by simp [hg])
    else isFalse (by simp [hn])
end

instance : DecidableEq Group := decEq

/-! ## On the wire -/

/-- The fields of a group whose child groups have the given content. -/
def fields {G : Type} (child : Content G) :
    Fields (UInt64 × NameMap G × NameMap ConfigValue × NameMap ConfigPolicy × String × Unit) :=
  .cons 1 .uint64 <| .cons 2 (.map child) <| .cons 3 (.map (message ConfigValue)) <|
    .cons 4 (.map (message ConfigPolicy)) <| .cons 5 .text .nil

mutual
def encode : Group → Bytes
  | ⟨version, groups, values, policies, modPolicy⟩ =>
    (fields .bytes).encode (version, encodeMap groups, values, policies, modPolicy, ())

def encodeMap : {lo : Option String} → SortedFrom Group lo → SortedFrom Bytes lo
  | _, .nil => .nil
  | _, .cons name above group rest => .cons name above (encode group) (encodeMap rest)
end

mutual
/-- The levels of nesting below a group. -/
def nesting : Group → Nat
  | ⟨_, groups, values, policies, _⟩ =>
    max (nestingMap groups) (max ((Field.map (message ConfigValue)).nesting values)
      ((Field.map (message ConfigPolicy)).nesting policies))

/-- An entry is one level, and the group in it another one if it is written. -/
def nestingMap : {lo : Option String} → SortedFrom Group lo → Nat
  | _, .nil => 0
  | _, .cons _ _ group rest =>
    max ((if encode group = [] then 0 else nesting group + 1) + 1) (nestingMap rest)
end

/-- Reads on top of a group, with the given reading of child groups. -/
def mergeWith (child : Content Group) (levels : Nat) (g : Group) (bs : Bytes) :
    Except DecodeError Group :=
  ((fields child).merge levels (g.version, g.groups, g.values, g.policies, g.modPolicy, ()) bs).map
    fun (version, groups, values, policies, modPolicy, _) =>
      { version, groups, values, policies, modPolicy }

/-- An entry and the group in it are two levels, so fewer leave no room for child groups. -/
def merge : (levels : Nat) → Group → Bytes → Except DecodeError Group
  | levels + 2 => mergeWith (.nested {} encode nesting fun _ => merge levels) (levels + 2)
  | levels => mergeWith (.nested {} encode nesting fun _ _ _ => .error .tooDeep) levels

end Group

instance : Message Group where
  codec := ⟨{}, Group.encode, Group.merge, Group.nesting⟩

end ChannelConfig
