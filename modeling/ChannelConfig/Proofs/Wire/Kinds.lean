import ChannelConfig.MessageKind
import ChannelConfig.Proofs.Tree.Wire

/-! Every message of the format reads back, whatever is in it. -/

set_option autoImplicit false

namespace ChannelConfig

open Wire

/-! ## Envelopes -/

instance : LawfulMessage Envelope := .ofFields rfl (fun _ => rfl) rfl (by simp)

instance : LawfulMessage Header := .ofFields rfl (fun _ => rfl) rfl (by simp)

instance : LawfulMessage Payload := .ofFields rfl (fun _ => rfl) rfl (by simp)

instance : LawfulMessage Timestamp := .ofFields rfl (fun _ => rfl) rfl (by simp)

instance : LawfulMessage ChannelHeader := .ofFields rfl (fun _ => rfl) rfl (by simp)

instance : LawfulMessage SignatureHeader := .ofFields rfl (fun _ => rfl) rfl (by simp)

/-! ## Blocks -/

instance : LawfulMessage BlockHeader := .ofFields rfl (fun _ => rfl) rfl (by simp)

instance : LawfulMessage BlockData := .ofFields rfl (fun _ => rfl) rfl (by simp)

instance : LawfulMessage BlockMetadata := .ofFields rfl (fun _ => rfl) rfl (by simp)

instance : LawfulMessage Block := .ofFields rfl (fun _ => rfl) rfl (by simp)

instance : LawfulMessage MetadataSignature := .ofFields rfl (fun _ => rfl) rfl (by simp)

instance : LawfulMessage Metadata := .ofFields rfl (fun _ => rfl) rfl (by simp)

instance : LawfulMessage LastConfig := .ofFields rfl (fun _ => rfl) rfl (by simp)

instance : LawfulMessage OrdererBlockMetadata := .ofFields rfl (fun _ => rfl) rfl (by simp)

/-! ## Configurations -/

instance : LawfulMessage Config := .ofFields rfl (fun _ => rfl) rfl (by simp)

instance : LawfulMessage ConfigEnvelope := .ofFields rfl (fun _ => rfl) rfl (by simp)

instance : LawfulMessage ConfigUpdate := .ofFields rfl (fun _ => rfl) rfl (by simp)

instance : LawfulMessage ConfigSignature := .ofFields rfl (fun _ => rfl) rfl (by simp)

instance : LawfulMessage ConfigUpdateEnvelope := .ofFields rfl (fun _ => rfl) rfl (by simp)

/-! ## Policies -/

instance : LawfulMessage MspPrincipal := .ofFields rfl (fun _ => rfl) rfl (by simp)

instance : LawfulMessage MspRole := .ofFields rfl (fun _ => rfl) rfl (by simp)

instance : LawfulMessage SignaturePolicyEnvelope := .ofFields rfl (fun _ => rfl) rfl (by simp)

instance : LawfulMessage ImplicitMetaPolicy := .ofFields rfl (fun _ => rfl) rfl (by simp)

/-! ## Membership -/

instance : LawfulMessage SerializedIdentity := .ofFields rfl (fun _ => rfl) rfl (by simp)

instance : LawfulMessage MspConfig := .ofFields rfl (fun _ => rfl) rfl (by simp)

instance : LawfulMessage KeyInfo := .ofFields rfl (fun _ => rfl) rfl (by simp)

instance : LawfulMessage SigningIdentityInfo := .ofFields rfl (fun _ => rfl) rfl (by simp)

instance : LawfulMessage FabricCryptoConfig := .ofFields rfl (fun _ => rfl) rfl (by simp)

instance : LawfulMessage FabricOuIdentifier := .ofFields rfl (fun _ => rfl) rfl (by simp)

instance : LawfulMessage FabricNodeOus := .ofFields rfl (fun _ => rfl) rfl (by simp)

instance : LawfulMessage FabricMspConfig := .ofFields rfl (fun _ => rfl) rfl (by simp)

/-! ## Settings -/

instance : LawfulMessage HashingAlgorithm := .ofFields rfl (fun _ => rfl) rfl (by simp)

instance : LawfulMessage BlockDataHashingStructure := .ofFields rfl (fun _ => rfl) rfl (by simp)

instance : LawfulMessage OrdererAddresses := .ofFields rfl (fun _ => rfl) rfl (by simp)

instance : LawfulMessage Consortium := .ofFields rfl (fun _ => rfl) rfl (by simp)

instance : LawfulMessage Capability := .ofFields rfl (fun _ => rfl) rfl (by simp)

instance : LawfulMessage Capabilities := .ofFields rfl (fun _ => rfl) rfl (by simp)

instance : LawfulMessage BatchSize := .ofFields rfl (fun _ => rfl) rfl (by simp)

instance : LawfulMessage BatchTimeout := .ofFields rfl (fun _ => rfl) rfl (by simp)

instance : LawfulMessage ChannelRestrictions := .ofFields rfl (fun _ => rfl) rfl (by simp)

instance : LawfulMessage ConsensusType := .ofFields rfl (fun _ => rfl) rfl (by simp)

instance : LawfulMessage KafkaBrokers := .ofFields rfl (fun _ => rfl) rfl (by simp)

instance : LawfulMessage Consenter := .ofFields rfl (fun _ => rfl) rfl (by simp)

instance : LawfulMessage RaftOptions := .ofFields rfl (fun _ => rfl) rfl (by simp)

instance : LawfulMessage RaftMetadata := .ofFields rfl (fun _ => rfl) rfl (by simp)

instance : LawfulMessage Endpoints := .ofFields rfl (fun _ => rfl) rfl (by simp)

instance : LawfulMessage AnchorPeer := .ofFields rfl (fun _ => rfl) rfl (by simp)

instance : LawfulMessage AnchorPeers := .ofFields rfl (fun _ => rfl) rfl (by simp)

instance : LawfulMessage ApiResource := .ofFields rfl (fun _ => rfl) rfl (by simp)

instance : LawfulMessage Acls := .ofFields rfl (fun _ => rfl) rfl (by simp)

/-! ## All of them -/

namespace MessageKind

instance (kind : MessageKind) : LawfulMessage kind.Carrier := by
  cases kind <;> exact inferInstance

/-- Reading what was written gives the message back if at most 100 levels nest in it, and fails
otherwise; and no two messages are written alike, however deep they nest. The bound is that of a
length on the wire, which no vector of bytes reaches. -/
theorem encode_round_trip (kind : MessageKind) (m : kind.Carrier) :
    ((encode m).length < UInt64.size →
      decode (encode m) = if nesting m ≤ 100 then .ok m else .error .tooDeep) ∧
    ∀ m' : kind.Carrier, encode m = encode m' → m = m' :=
  ⟨decode_encode_eq, fun _ => encode_inj.1⟩

/-- An empty name, a value that is present but empty, and a negative number. -/
def oddGroup : Group :=
  { groups := SortedFrom.ofList [("", {})]
    policies := SortedFrom.ofList [("", { content := some { type := -1 } })] }

/-- So many gates around a rule of no type. Each is two levels, itself and the rule in it. -/
def tower : Nat → SignaturePolicy
  | 0 => .untyped
  | n + 1 => .nOutOf 0 [tower n]

/-- The odd group, the highest tower that is read back, and the next one. -/
theorem encode_round_trip_limits :
    decode (encode oddGroup) = .ok oddGroup ∧ decode (encode (tower 50)) = .ok (tower 50) ∧
      decode (M := SignaturePolicy) (encode (tower 51)) = .error .tooDeep := by
  have hodd : (encode oddGroup).length < UInt64.size ∧ nesting oddGroup ≤ 100 := by
    decide +kernel
  have hfits : (encode (tower 50)).length < UInt64.size ∧ nesting (tower 50) ≤ 100 := by
    decide +kernel
  have hdeep : (encode (tower 51)).length < UInt64.size ∧ ¬ nesting (tower 51) ≤ 100 := by
    decide +kernel
  refine ⟨?_, ?_, ?_⟩
  · exact ((encode_round_trip configGroup oddGroup).1 hodd.1).trans (if_pos hodd.2)
  · exact ((encode_round_trip signaturePolicy (tower 50)).1 hfits.1).trans (if_pos hfits.2)
  · exact ((encode_round_trip signaturePolicy (tower 51)).1 hdeep.1).trans (if_neg hdeep.2)

end MessageKind

end ChannelConfig
