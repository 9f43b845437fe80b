import ChannelConfig.Tree.Config
import ChannelConfig.Value.Standard

/-!
# Inspection

A configuration as JSON, with well-known values and policies in readable form. A value that is not
well known, or whose payload cannot be read, is shown by its bytes; a policy that cannot be read, by
the reason.
-/

set_option autoImplicit false

namespace ChannelConfig

namespace ConfigValue

def toJson (name : String) (v : ConfigValue) : Json :=
  let shown : Json :=
    match StandardValue.decode name v.content with
    | .ok value => value.toJson
    | .error _ => .object [("raw", .hex v.content)]
  .object [("version", .nat v.version.toNat), ("mod_policy", v.modPolicy), ("value", shown)]

end ConfigValue

namespace ConfigPolicy

def toJson (p : ConfigPolicy) : Json :=
  let shown : Json :=
    match p.content with
    | none => .null
    | some policy =>
      match AccessPolicy.renderMessage policy with
      | .ok text => text
      | .error e => .object [("error", e.message)]
  .object [("version", .nat p.version.toNat), ("mod_policy", p.modPolicy), ("policy", shown)]

end ConfigPolicy

namespace Group

mutual
def toJson : Group → Json
  | ⟨version, groups, values, policies, modPolicy⟩ =>
    .object [
      ("version", .nat version.toNat), ("mod_policy", modPolicy),
      ("groups", .obj (toJsonMap groups)),
      ("values", .obj (values.map ConfigValue.toJson)),
      ("policies", .obj (policies.map fun _ p => ConfigPolicy.toJson p))]

def toJsonMap : {lo : Option String} → SortedFrom Group lo → SortedFrom Json lo
  | _, .nil => .nil
  | _, .cons name above g rest => .cons name above (toJson g) (toJsonMap rest)
end

end Group

def Config.toJson (c : Config) : Json :=
  .object [
    ("sequence", .nat c.sequence.toNat),
    ("channel_group", .ofOption Group.toJson c.channelGroup)]

end ChannelConfig
