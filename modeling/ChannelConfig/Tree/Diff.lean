import ChannelConfig.Tree.Config
import ChannelConfig.Error

/-!
# Updates

An update turns the tree that a channel has into the tree that it should have. It reads the entries
that it relies on, at the versions they have, and writes the entries that change.

* A leaf in both trees whose content differs is read without content and written with the new
  content at the next version.
* A leaf or a child group that only the new tree has is written at version 0, all below it too.
* A group is part of the update if something at or below it changes, members that come or go
  included. It is read at its version and written at the next one; its unchanged leaves are repeated
  in both sets as they were, its unchanged child groups are left out.
-/

set_option autoImplicit false

namespace ChannelConfig

namespace Leaf

variable {α : Type} [DecidableEq α]

/-- Equality of leaves apart from their versions. -/
def SameContent (a b : Leaf α) : Prop := a.content = b.content ∧ a.modPolicy = b.modPolicy

instance (a b : Leaf α) : Decidable (a.SameContent b) :=
  inferInstanceAs (Decidable (_ ∧ _))

end Leaf

/-- Whether the first map has a name that the second one lacks. -/
def SortedFrom.exceeds {V W : Type} {lo : Option String} (m : SortedFrom V lo)
    (n : NameMap W) : Bool :=
  m.names.any fun name => !n.contains name

section

variable {α : Type} [DecidableEq α]

/-- Leaves of both trees, as the update reads them: unchanged ones whole, others without content. -/
def readLeaves (blank : α) (current updated : NameMap (Leaf α)) : NameMap (Leaf α) :=
  current.filterMap fun name c =>
    (updated.find? name).map fun u =>
      if c.SameContent u then c else { version := c.version, content := blank }

/-- Leaves of the new tree, as the update writes them. -/
def writeLeaves (current updated : NameMap (Leaf α)) : NameMap (Leaf α) :=
  updated.map fun name u =>
    match current.find? name with
    | none => { u with version := 0 }
    | some c => if c.SameContent u then c else { u with version := c.version + 1 }

/-- Whether a leaf comes, goes or has other content. -/
def leavesChanged (current updated : NameMap (Leaf α)) : Bool :=
  current.exceeds updated ||
    updated.toList.any fun (name, u) =>
      match current.find? name with
      | none => true
      | some c => !decide (c.SameContent u)

end

namespace Group

/-! ## New groups -/

mutual
/-- The same tree with every version 0. -/
def fresh : Group → Group
  | ⟨_, groups, values, policies, modPolicy⟩ =>
    { version := 0
      groups := freshMap groups
      values := values.map fun _ v => { v with version := 0 }
      policies := policies.map fun _ p => { p with version := 0 }
      modPolicy }

def freshMap : {lo : Option String} → SortedFrom Group lo → SortedFrom Group lo
  | _, .nil => .nil
  | _, .cons name above g rest => .cons name above (fresh g) (freshMap rest)
end

/-! ## Differences -/

/-- What an update says of a group. -/
structure Delta where
  read : Group
  write : Group

mutual
/-- `none` if the groups have the same content. -/
def diff? (current updated : Group) : Option Delta :=
  match current with
  | ⟨version, groups, values, policies, modPolicy⟩ =>
    let deltas := diffChildren groups updated.groups
    let added := updated.groups.filterMap fun name u =>
      if groups.contains name then none else some u.fresh
    if leavesChanged values updated.values || leavesChanged policies updated.policies ||
        groups.exceeds updated.groups || !added.isEmpty || !deltas.isEmpty ||
        modPolicy ≠ updated.modPolicy then
      some {
        read := {
          version
          groups := deltas.map fun _ d => d.read
          values := readLeaves [] values updated.values
          policies := readLeaves none policies updated.policies }
        write := {
          version := version + 1
          groups := (deltas.map fun _ d => d.write).overlay added
          values := writeLeaves values updated.values
          policies := writeLeaves policies updated.policies
          modPolicy := updated.modPolicy } }
    else none

/-- The child groups of both trees that differ. -/
def diffChildren : {lo : Option String} → SortedFrom Group lo → NameMap Group →
    SortedFrom Delta lo
  | _, .nil, _ => .nil
  | _, .cons name above current rest, updated =>
    match (updated.find? name).bind (diff? current) with
    | some delta => .cons name above delta (diffChildren rest updated)
    | none => (diffChildren rest updated).relax fun _ => above.trans
end

end Group

def updateBetween (current updated : Group) : Result ConfigUpdate :=
  match current.diff? updated with
  | some delta => .ok { readSet := some delta.read, writeSet := some delta.write }
  | none => .error .noDifferences

def Config.updateTo (current updated : Config) : Result ConfigUpdate :=
  match current.channelGroup, updated.channelGroup with
  | none, _ => .invalid .noCurrentGroup
  | some _, none => .invalid .noUpdatedGroup
  | some c, some u => updateBetween c u

end ChannelConfig
