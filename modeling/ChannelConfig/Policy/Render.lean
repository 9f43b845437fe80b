import ChannelConfig.Policy.Principal

/-!
# Policies as text

A gate that asks for all its rules is shown as `AND`, one that asks for one as `OR`, any other as
`OutOf` with its number. Only envelopes whose identities are all role principals can be shown.
-/

set_option autoImplicit false

namespace ChannelConfig.Policy

/-- What stands in front of the arguments of a gate of `count` rules. -/
def gateHead (n : Int32) (count : Nat) : String :=
  if n.toInt = count then "AND("
  else if n = 1 then "OR("
  else s!"OutOf({n},"

mutual
/-- Shows a rule over the given principals, with gates nested at most so deep. -/
def renderRule (principals : List Principal) (depth : Nat) : SignaturePolicy → Result String
  | .signedBy identity =>
    let found := if identity < 0 then none else principals[identity.toInt.toNat]?
    match found with
    | some p => .ok ("'" ++ p.text ++ "'")
    | none => .invalid (.identityOutOfRange identity principals.length)
  | .nOutOf n rules =>
    match depth with
    | 0 => .invalid .renderTooDeep
    | depth + 1 => do
      let args ← renderRules principals depth rules
      return gateHead n rules.length ++ ",".intercalate args ++ ")"
  | .untyped => .invalid .untypedRule

def renderRules (principals : List Principal) (depth : Nat) :
    List SignaturePolicy → Result (List String)
  | [] => .ok []
  | rule :: rules => do
    let arg ← renderRule principals depth rule
    let args ← renderRules principals depth rules
    return arg :: args
end

def render (envelope : SignaturePolicyEnvelope) : Result String := do
  let principals ← envelope.identities.mapM Principal.ofMessage
  match envelope.rule with
  | none => .invalid .noRule
  | some rule => renderRule principals maxGateDepth rule

end ChannelConfig.Policy
