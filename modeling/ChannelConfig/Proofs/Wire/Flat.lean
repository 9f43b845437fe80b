import ChannelConfig.Proofs.Wire.Depth
import ChannelConfig.Proofs.Wire.Kinds

/-! Messages that hold no tree nest no deeper than their type lets them, so they always read back
(`decode_encode_of_flat`). A `FlatMessage` has its bound from the bounds of its fields. -/

set_option autoImplicit false

namespace ChannelConfig

namespace Wire

/-! ## Fields -/

namespace Field

attribute [simp] nesting_text nesting_bytes

@[simp] theorem nesting_uint64 (n : UInt64) : uint64.nesting n = 0 := rfl

@[simp] theorem nesting_uint32 (n : UInt32) : uint32.nesting n = 0 := rfl

@[simp] theorem nesting_int64 (n : Int64) : int64.nesting n = 0 := rfl

@[simp] theorem nesting_int32 (n : Int32) : int32.nesting n = 0 := rfl

@[simp] theorem nesting_bool (b : Bool) : bool.nesting b = 0 := rfl

@[simp] theorem nesting_repeated_text (ts : List String) : (repeated .text).nesting ts = 0 :=
  Nat.le_zero.1 (nesting_repeated_le_iff.2 fun _ _ => Nat.le_refl 0)

@[simp] theorem nesting_repeated_bytes (bss : List Bytes) : (repeated .bytes).nesting bss = 0 :=
  Nat.le_zero.1 (nesting_repeated_le_iff.2 fun _ _ => Nat.le_refl 0)

end Field

/-! ## Messages -/

/-- A message with at most so many levels in it, whatever it holds. -/
class FlatMessage (M : Type) [Message M] (levels : outParam Nat) : Prop where
  nesting_le : ∀ m : M, nesting m ≤ levels

section

variable {M : Type} [Message M] {inner levels : Nat}

theorem FlatMessage.ofFields {Ts : Type} {fields : Fields Ts} {toTuple : M → Ts} {ofTuple : Ts → M}
    (hcodec : Message.codec = Codec.ofFields fields toTuple ofTuple)
    (hfields : fields.AtMost levels) : FlatMessage M levels := by
  refine ⟨fun m => ?_⟩
  rw [nesting, hcodec]
  exact hfields.nesting_le (toTuple m)

variable [FlatMessage M inner]

theorem nesting_message_le (h : inner < levels) (m : M) : (message M).nesting m ≤ levels :=
  Nat.le_trans (Nat.succ_le_succ (FlatMessage.nesting_le m)) h

@[simp] theorem Field.nesting_optional_message_le (h : inner < levels) (m : Option M) :
    (optional (message M)).nesting m ≤ levels :=
  nesting_optional_le_iff.2 fun m _ => nesting_message_le h m

@[simp] theorem Field.nesting_repeated_message_le (h : inner < levels) (ms : List M) :
    (repeated (message M)).nesting ms ≤ levels :=
  nesting_repeated_le_iff.2 fun m _ => nesting_message_le h m

@[simp] theorem Field.nesting_map_message_le (h : inner + 1 < levels) (m : NameMap M) :
    (map (message M)).nesting m ≤ levels := by
  refine nesting_map_le_iff.2 fun _ t _ => ?_
  have hsingle := nesting_single_le (message M) t
  have hmessage := nesting_message_le (Nat.lt_succ_self inner) t
  omega

theorem decode_encode_of_flat [LawfulMessage M] {m : M} (hlevels : inner ≤ maxLevels)
    (hlength : (encode m).length < UInt64.size) : decode (encode m) = .ok m :=
  decode_encode_of_le hlength (Nat.le_trans (FlatMessage.nesting_le m) hlevels)

end

end Wire

open Wire

/-! ## Envelopes and blocks -/

instance : FlatMessage Envelope 0 := .ofFields rfl (by simp)

instance : FlatMessage Header 0 := .ofFields rfl (by simp)

instance : FlatMessage Payload 1 := .ofFields rfl (by simp)

instance : FlatMessage Timestamp 0 := .ofFields rfl (by simp)

instance : FlatMessage ChannelHeader 1 := .ofFields rfl (by simp)

instance : FlatMessage SignatureHeader 0 := .ofFields rfl (by simp)

instance : FlatMessage BlockHeader 0 := .ofFields rfl (by simp)

instance : FlatMessage BlockData 0 := .ofFields rfl (by simp)

instance : FlatMessage BlockMetadata 0 := .ofFields rfl (by simp)

instance : FlatMessage Block 1 := .ofFields rfl (by simp)

/-! ## Leaves and signatures -/

instance : FlatMessage Policy 0 := .ofFields rfl (by simp)

instance : FlatMessage ConfigValue 0 := .ofFields rfl (by simp)

instance : FlatMessage ConfigPolicy 1 := .ofFields rfl (by simp)

instance : FlatMessage ConfigSignature 0 := .ofFields rfl (by simp)

instance : FlatMessage ConfigUpdateEnvelope 1 := .ofFields rfl (by simp)

/-! ## Membership -/

instance : FlatMessage MspConfig 0 := .ofFields rfl (by simp)

instance : FlatMessage KeyInfo 0 := .ofFields rfl (by simp)

instance : FlatMessage SigningIdentityInfo 1 := .ofFields rfl (by simp)

instance : FlatMessage FabricCryptoConfig 0 := .ofFields rfl (by simp)

instance : FlatMessage FabricOuIdentifier 0 := .ofFields rfl (by simp)

instance : FlatMessage FabricNodeOus 1 := .ofFields rfl (by simp)

instance : FlatMessage FabricMspConfig 2 := .ofFields rfl (by simp)

/-! ## Settings -/

instance : FlatMessage HashingAlgorithm 0 := .ofFields rfl (by simp)

instance : FlatMessage BlockDataHashingStructure 0 := .ofFields rfl (by simp)

instance : FlatMessage OrdererAddresses 0 := .ofFields rfl (by simp)

instance : FlatMessage Consortium 0 := .ofFields rfl (by simp)

instance : FlatMessage Capability 0 := .ofFields rfl (by simp)

instance : FlatMessage Capabilities 2 := .ofFields rfl (by simp)

instance : FlatMessage BatchSize 0 := .ofFields rfl (by simp)

instance : FlatMessage BatchTimeout 0 := .ofFields rfl (by simp)

instance : FlatMessage ChannelRestrictions 0 := .ofFields rfl (by simp)

instance : FlatMessage ConsensusType 0 := .ofFields rfl (by simp)

instance : FlatMessage KafkaBrokers 0 := .ofFields rfl (by simp)

instance : FlatMessage Consenter 0 := .ofFields rfl (by simp)

instance : FlatMessage RaftOptions 0 := .ofFields rfl (by simp)

instance : FlatMessage RaftMetadata 1 := .ofFields rfl (by simp)

instance : FlatMessage Endpoints 0 := .ofFields rfl (by simp)

instance : FlatMessage AnchorPeer 0 := .ofFields rfl (by simp)

instance : FlatMessage AnchorPeers 1 := .ofFields rfl (by simp)

instance : FlatMessage ApiResource 0 := .ofFields rfl (by simp)

instance : FlatMessage Acls 2 := .ofFields rfl (by simp)

end ChannelConfig
