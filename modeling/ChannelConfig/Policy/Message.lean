import ChannelConfig.Policy.Rule

/-!
# Policies on the wire

A `Policy` holds an encoded policy and the number of its kind. A signature policy comes as an
envelope of a rule and the identities that the rule counts; an implicit meta policy names a policy
of the child groups.
-/

set_option autoImplicit false

namespace ChannelConfig

open Wire

structure MspPrincipal where
  classification : Int32 := 0
  principal : Bytes := []
  deriving DecidableEq, Repr

instance : Message MspPrincipal where
  codec := .ofFields (.cons 1 .int32 <| .cons 2 .bytes .nil)
    (fun m => (m.classification, m.principal, ()))
    (fun (classification, principal, _) => { classification, principal })

structure MspRole where
  mspId : String := ""
  role : Int32 := 0
  deriving DecidableEq, Repr

instance : Message MspRole where
  codec := .ofFields (.cons 1 .text <| .cons 2 .int32 .nil)
    (fun m => (m.mspId, m.role, ()))
    (fun (mspId, role, _) => { mspId, role })

structure SignaturePolicyEnvelope where
  version : Int32 := 0
  rule : Option SignaturePolicy := none
  identities : List MspPrincipal := []
  deriving DecidableEq, Repr

instance : Message SignaturePolicyEnvelope where
  codec := .ofFields
    (.cons 1 .int32 <| .cons 2 (.optional (message SignaturePolicy)) <|
      .cons 3 (.repeated (message MspPrincipal)) .nil)
    (fun m => (m.version, m.rule, m.identities, ()))
    (fun (version, rule, identities, _) => { version, rule, identities })

structure ImplicitMetaPolicy where
  subPolicy : String := ""
  rule : Int32 := 0
  deriving DecidableEq, Repr

instance : Message ImplicitMetaPolicy where
  codec := .ofFields (.cons 1 .text <| .cons 2 .int32 .nil)
    (fun m => (m.subPolicy, m.rule, ()))
    (fun (subPolicy, rule, _) => { subPolicy, rule })

structure Policy where
  type : Int32 := 0
  value : Bytes := []
  deriving DecidableEq, Repr

instance : Message Policy where
  codec := .ofFields (.cons 1 .int32 <| .cons 2 .bytes .nil)
    (fun m => (m.type, m.value, ()))
    (fun (type, value, _) => { type, value })

end ChannelConfig
