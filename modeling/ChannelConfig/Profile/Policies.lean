import ChannelConfig.Profile.Basic
import ChannelConfig.Tree.Edit

/-!
# Policies of a profile

The policies of a section are checked for the names that it must define, then compiled and put into
its group in the order of their names.
-/

set_option autoImplicit false

namespace ChannelConfig

/-- The policy, its rule read as its type says. -/
def PolicyDef.compile (d : PolicyDef) : Result AccessPolicy :=
  if d.type = implicitMetaType then
    (Result.ofPolicy (AccessPolicy.parseImplicitMeta d.rule)).within (.implicitMetaRule d.rule)
  else if d.type = signatureType then
    (Result.ofPolicy (AccessPolicy.parseSignature d.rule)).within (.signatureRule d.rule)
  else .invalid (.unknownPolicyType d.type)

namespace Group

/-- Compiles policies into a group, one after the other. It stops at the first that is not valid;
those before it stay in the group. -/
def compilePolicies (modPolicy : String) : Group → List (String × PolicyDef) → Group × Result Unit
  | g, [] => (g, .ok ())
  | g, (name, d) :: ds =>
    match d.compile with
    | .ok policy => compilePolicies modPolicy (g.setPolicy name policy modPolicy) ds
    | .error e => (g, .error e)

/-- The group with these policies, and whether all required ones are there and all are valid. -/
def addPolicies (g : Group) (policies : NameMap PolicyDef) (modPolicy : String)
    (required : List String) : Group × Result Unit :=
  match requirePolicies policies required with
  | .ok () => g.compilePolicies modPolicy policies.toList
  | .error e => (g, .error e)

/-- A group under the admins, with the policies of a section. -/
def ofPolicies (policies : NameMap PolicyDef) (required : List String) : Result Group :=
  match (governedBy adminsPolicy).addPolicies policies adminsPolicy required with
  | (g, .ok ()) => .ok g
  | (_, .error e) => .error e

end Group

end ChannelConfig
