import ChannelConfig.Tree.Group
import ChannelConfig.Policy.Access

/-!
# Building trees

The well-known names of groups and policies, and the ways to put entries into a group and to find
groups in a tree.
-/

set_option autoImplicit false

namespace ChannelConfig

/-! ## Well-known names -/

def ordererGroup : String := "Orderer"
def applicationGroup : String := "Application"
def consortiumsGroup : String := "Consortiums"

def adminsPolicy : String := "Admins"
def readersPolicy : String := "Readers"
def writersPolicy : String := "Writers"
def blockValidationPolicy : String := "BlockValidation"

/-- The policy of the ordering service's admins, by its path from the root. -/
def ordererAdmins : String := "/Channel/Orderer/Admins"

/-- The policies that a channel, its application and every organization must define. -/
def standardPolicies : List String := [adminsPolicy, readersPolicy, writersPolicy]

/-- The policies that the ordering service must define. -/
def ordererPolicies : List String := standardPolicies ++ [blockValidationPolicy]

/-! ## Groups -/

namespace Group

/-- An empty group under a modification policy. -/
def governedBy (modPolicy : String) : Group := { modPolicy }

def setValue (g : Group) (name : String) (content : Bytes) (modPolicy : String) : Group :=
  { g with values := g.values.insert name { content, modPolicy } }

def setPolicy (g : Group) (name : String) (policy : AccessPolicy) (modPolicy : String) : Group :=
  { g with policies := g.policies.insert name { content := some policy.toMessage, modPolicy } }

def setGroup (g : Group) (name : String) (child : Group) : Group :=
  { g with groups := g.groups.insert name child }

/-- The group at a path of names below this one. -/
def at? (g : Group) : List String → Option Group
  | [] => some g
  | name :: path =>
    match g.groups.find? name with
    | some child => child.at? path
    | none => none

/-- Changes the group at a path; the tree is returned as it is where there is none. -/
def modifyAt (g : Group) (path : List String) (f : Group → Group) : Group :=
  match path with
  | [] => f g
  | name :: path =>
    match g.groups.find? name with
    | some child => g.setGroup name (child.modifyAt path f)
    | none => g

end Group

/-- Asks for every required name, in order. A map without any policy is a fault of its own. -/
def requirePolicies {V : Type} (policies : NameMap V) (required : List String) : Result Unit :=
  if policies.isEmpty then .invalid .noPolicies
  else
    match required.find? fun name => !policies.contains name with
    | some name => .invalid (.missingPolicy name)
    | none => .ok ()

end ChannelConfig
