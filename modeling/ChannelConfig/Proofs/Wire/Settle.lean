import ChannelConfig.Proofs.Tree.Depth
import ChannelConfig.Proofs.Wire.Growth
import ChannelConfig.Proofs.Wire.Kinds

/-! Whatever bytes a message was read from, the bytes it is written as are read as the same message.
Two things could go wrong, and each kind of message rules them out: that the message nests deeper
than may be read (`ShallowMessage`), and that it takes more bytes than a length can say
(`ConciseMessage`). -/

set_option autoImplicit false

namespace ChannelConfig

open Wire

/-- A message that is read as the same one from what it is written as, whatever it was read from. -/
class SettlingMessage (M : Type) [Message M] : Prop extends ShallowMessage M, ConciseMessage M

section

variable {M : Type} [Message M]

theorem SettlingMessage.ofFields {Ts : Type} {fields : Fields Ts} {toTuple : M → Ts}
    {ofTuple : Ts → M} (hcodec : Message.codec = Codec.ofFields fields toTuple ofTuple)
    (hto : ∀ ts, toTuple (ofTuple ts) = ts) (hdepth : ∀ levels, fields.StaysWithin levels)
    (hlength : ∀ levels, fields.BoundedGrowth levels) : SettlingMessage M where
  toShallowMessage := .ofFields hcodec hto hdepth
  toConciseMessage := .ofFields hcodec hto hlength

/-- Reading from bytes that fit in memory settles in one step. -/
theorem decode_encode_of_decode [LawfulMessage M] [SettlingMessage M] {bs : Bytes} {m : M}
    (hlength : bs.length < 9223372036854775808) (h : decode bs = .ok m) :
    decode (encode m) = .ok m := by
  have hgrowth := length_encode_le_of_decode h
  have hfits : (encode m).length < UInt64.size := by
    simp only [UInt64.size]
    omega
  exact decode_encode_of_le hfits (nesting_le_of_decode h)

end

/-! ## Signature rules -/

namespace SignaturePolicy

/-- The gate that more of a gate is read on top of. -/
def gate : SignaturePolicy → Int32 × List SignaturePolicy × Unit
  | .nOutOf n rules => (n, rules, ())
  | _ => (NOutOf.fields (message SignaturePolicy)).empty

/-- What one more record makes of a rule. -/
theorem absorb_cases {levels : Nat} {before after : SignaturePolicy} {r : Record}
    (h : absorb (message SignaturePolicy) levels before r = .ok after) :
    (∃ n, r = ⟨1, .varint n⟩ ∧ after = .signedBy (Int32.ofNat n)) ∨
    (∃ left bs n rules, r = ⟨2, .delimited bs⟩ ∧ levels = left + 1 ∧
      (NOutOf.fields (message SignaturePolicy)).merge left before.gate bs = .ok (n, rules, ()) ∧
      after = .nOutOf n rules) ∨
    after = before := by
  unfold absorb at h
  split at h
  · next n =>
    cases h
    exact .inl ⟨n, rfl, rfl⟩
  · next bs =>
    cases levels with
    | zero => cases h
    | succ left =>
      obtain ⟨⟨n, rules, _⟩, hmerge, rfl⟩ := exists_of_map_eq_ok h
      refine .inr (.inl ⟨left, bs, n, rules, rfl, rfl, ?_, rfl⟩)
      cases before <;> exact hmerge
  · cases h
  · cases h
  · split at h
    · cases h
    · cases h
      exact .inr (.inr rfl)

theorem exists_foldlM_of_merge {levels : Nat} {before after : SignaturePolicy} {bs : Bytes}
    (h : SignaturePolicy.merge levels before bs = .ok after) :
    ∃ records, parse levels (fun _ => false) bs = .ok records ∧
      records.foldlM (absorb (message SignaturePolicy) levels) before = .ok after := by
  rw [merge_eq, mergeWith] at h
  split at h
  · cases h
  · next records hrecords => exact ⟨records, hrecords, h⟩

/-! ### Depth -/

theorem nesting_gate_le {p : SignaturePolicy} {left : Nat} (h : p.nesting ≤ left + 1) :
    (NOutOf.fields (message SignaturePolicy)).nesting p.gate ≤ left := by
  cases p with
  | untyped => exact Nat.zero_le _
  | signedBy i => exact Nat.zero_le _
  | nOutOf n rules =>
    rw [nesting_nOutOf] at h
    exact Nat.le_of_succ_le_succ h

theorem nesting_le_of_absorb {levels : Nat} {before after : SignaturePolicy} {r : Record}
    (hgate : ∀ left, levels = left + 1 →
      (NOutOf.fields (message SignaturePolicy)).StaysWithin left)
    (hbefore : before.nesting ≤ levels)
    (h : absorb (message SignaturePolicy) levels before r = .ok after) :
    after.nesting ≤ levels := by
  obtain ⟨n, -, rfl⟩ | ⟨left, bs, n, rules, -, rfl, hmerge, rfl⟩ | rfl := absorb_cases h
  · rw [SignaturePolicy.nesting]
    exact Nat.zero_le _
  · have hstart := nesting_gate_le hbefore
    have hend := Fields.nesting_le_of_merge (hgate left rfl) hstart hmerge
    rw [nesting_nOutOf]
    exact Nat.succ_le_succ hend
  · exact hbefore

/-- The rules of a gate are read two levels further down. -/
theorem staysWithin_codec (levels : Nat) :
    (Message.codec (M := SignaturePolicy)).StaysWithin levels := by
  induction levels using Nat.strongRecOn with
  | ind levels ih =>
    have hgate : ∀ left, levels = left + 1 →
        (NOutOf.fields (message SignaturePolicy)).StaysWithin left := by
      rintro left rfl
      have hrule : (message SignaturePolicy).StaysWithin left :=
        Codec.staysWithin_content fun left' hleft' => ih left' (by omega)
      exact ⟨Field.staysWithin_int32, Field.staysWithin_repeated hrule, trivial⟩
    refine ⟨?_, fun p bs p' hp h => ?_⟩
    · show SignaturePolicy.nesting .untyped = 0
      rw [SignaturePolicy.nesting]
    · obtain ⟨records, -, hfold⟩ := exists_foldlM_of_merge h
      exact of_foldlM_eq_ok (fun _ _ _ => nesting_le_of_absorb hgate) hp hfold

/-! ### Length -/

theorem encode_nOutOf (n : Int32) (rules : List SignaturePolicy) :
    (nOutOf n rules).encode = Record.encode
      ⟨2, .delimited ((NOutOf.fields (message SignaturePolicy)).encode (n, rules, ()))⟩ := by
  rw [encode_eq, records, serialize, List.flatMap_singleton]

theorem length_le_of_absorb {levels : Nat} {before after : SignaturePolicy} {r : Record}
    (hgate : ∀ left, levels = left + 1 →
      (NOutOf.fields (message SignaturePolicy)).BoundedGrowth left)
    (h : absorb (message SignaturePolicy) levels before r = .ok after) :
    after.encode.length ≤ before.encode.length + 2 * r.encode.length := by
  obtain ⟨n, rfl, rfl⟩ | ⟨left, bs, n, rules, rfl, rfl, hmerge, rfl⟩ | rfl := absorb_cases h
  · -- the number of a signer is a field of its own, on top of nothing
    have hsigner : (signedBy (Int32.ofNat n)).encode =
        Record.encode ⟨1, .varint (Int32.ofNat n).toInt64.toUInt64.toNat⟩ := by
      rw [encode_eq, records, serialize, List.flatMap_singleton]
    have hdigits := Field.length_encode_int32_le n
    rw [hsigner, length_encode_varint, length_encode_varint]
    omega
  · have hgrowth := Fields.length_le_of_merge (hgate left rfl) hmerge
    have hfirst : before.gate = (NOutOf.fields (message SignaturePolicy)).empty →
        (nOutOf n rules).encode.length ≤
          before.encode.length + 2 * (Record.encode ⟨2, .delimited bs⟩).length := by
      intro hempty
      rw [hempty, Fields.encode_empty wellFormed_fields, List.length_nil, Nat.zero_add] at hgrowth
      rw [encode_nOutOf]
      exact Nat.le_trans (length_delimited_le_of_double hgrowth) (Nat.le_add_left _ _)
    cases before with
    | untyped => exact hfirst rfl
    | signedBy i => exact hfirst rfl
    | nOutOf n' rules' =>
      rw [encode_nOutOf, encode_nOutOf]
      exact length_delimited_le_of_add hgrowth
  · exact Nat.le_add_right _ _

theorem boundedGrowth_codec (levels : Nat) :
    (Message.codec (M := SignaturePolicy)).BoundedGrowth levels := by
  induction levels using Nat.strongRecOn with
  | ind levels ih =>
    have hgate : ∀ left, levels = left + 1 →
        (NOutOf.fields (message SignaturePolicy)).BoundedGrowth left := by
      rintro left rfl
      have hrule : (message SignaturePolicy).BoundedGrowth left :=
        Codec.boundedGrowth_content fun left' hleft' => ih left' (by omega)
      exact ⟨Field.boundedGrowth_int32,
        Field.boundedGrowth_repeated lawful_message.toBytes_empty hrule, trivial⟩
    intro p bs p' h
    obtain ⟨records, hrecords, hfold⟩ := exists_foldlM_of_merge h
    have hparsed := length_serialize_le_of_parse hrecords
    have hgrowth := length_le_of_foldlM (fun _ _ _ => length_le_of_absorb hgate) hfold
    show p'.encode.length ≤ p.encode.length + 2 * bs.length
    omega

instance : SettlingMessage SignaturePolicy where
  staysWithin := staysWithin_codec
  boundedGrowth := boundedGrowth_codec

end SignaturePolicy

/-! ## Policies -/

instance : SettlingMessage NOutOf :=
  .ofFields rfl (fun _ => rfl) (by simp [NOutOf.fields]) (by simp [NOutOf.fields])

instance : SettlingMessage MspPrincipal := .ofFields rfl (fun _ => rfl) (by simp) (by simp)

instance : SettlingMessage MspRole := .ofFields rfl (fun _ => rfl) (by simp) (by simp)

instance : SettlingMessage SignaturePolicyEnvelope := .ofFields rfl (fun _ => rfl) (by simp) (by simp)

instance : SettlingMessage ImplicitMetaPolicy := .ofFields rfl (fun _ => rfl) (by simp) (by simp)

instance : SettlingMessage Policy := .ofFields rfl (fun _ => rfl) (by simp) (by simp)

/-! ## Configurations -/

instance : SettlingMessage ConfigValue := .ofFields rfl (fun _ => rfl) (by simp) (by simp)

instance : SettlingMessage ConfigPolicy := .ofFields rfl (fun _ => rfl) (by simp) (by simp)

theorem Group.boundedGrowth_codec (levels : Nat) :
    (Message.codec (M := Group)).BoundedGrowth levels := by
  induction levels using Nat.strongRecOn with
  | ind levels ih =>
    have hchild : ∀ left, levels = left + 1 → (message Group).BoundedGrowth left := by
      intro left hleft
      exact Codec.boundedGrowth_content fun left' hleft' => ih left' (by omega)
    have hfields : (fields (message Group)).BoundedGrowth levels :=
      ⟨Field.boundedGrowth_uint64, Field.boundedGrowth_map Group.encode_empty hchild,
        Field.boundedGrowth_map_message, Field.boundedGrowth_map_message,
        Field.boundedGrowth_text, trivial⟩
    intro g bs g' hread
    have hread : Group.merge levels g bs = .ok g' := hread
    show g'.encode.length ≤ g.encode.length + 2 * bs.length
    rw [encode_eq, encode_eq]
    rw [merge_eq] at hread
    obtain ⟨ts, hts, rfl⟩ := exists_of_map_eq_ok hread
    exact Fields.length_le_of_merge hfields hts

instance : SettlingMessage Group where
  boundedGrowth := Group.boundedGrowth_codec

instance : SettlingMessage Config := .ofFields rfl (fun _ => rfl) (by simp) (by simp)

/-! ## Envelopes and blocks -/

instance : SettlingMessage Envelope := .ofFields rfl (fun _ => rfl) (by simp) (by simp)

instance : SettlingMessage Header := .ofFields rfl (fun _ => rfl) (by simp) (by simp)

instance : SettlingMessage Payload := .ofFields rfl (fun _ => rfl) (by simp) (by simp)

instance : SettlingMessage Timestamp := .ofFields rfl (fun _ => rfl) (by simp) (by simp)

instance : SettlingMessage ChannelHeader := .ofFields rfl (fun _ => rfl) (by simp) (by simp)

instance : SettlingMessage SignatureHeader := .ofFields rfl (fun _ => rfl) (by simp) (by simp)

instance : SettlingMessage ConfigEnvelope := .ofFields rfl (fun _ => rfl) (by simp) (by simp)

instance : SettlingMessage ConfigUpdate := .ofFields rfl (fun _ => rfl) (by simp) (by simp)

instance : SettlingMessage ConfigSignature := .ofFields rfl (fun _ => rfl) (by simp) (by simp)

instance : SettlingMessage ConfigUpdateEnvelope := .ofFields rfl (fun _ => rfl) (by simp) (by simp)

instance : SettlingMessage BlockHeader := .ofFields rfl (fun _ => rfl) (by simp) (by simp)

instance : SettlingMessage BlockData := .ofFields rfl (fun _ => rfl) (by simp) (by simp)

instance : SettlingMessage BlockMetadata := .ofFields rfl (fun _ => rfl) (by simp) (by simp)

instance : SettlingMessage Block := .ofFields rfl (fun _ => rfl) (by simp) (by simp)

instance : SettlingMessage MetadataSignature := .ofFields rfl (fun _ => rfl) (by simp) (by simp)

instance : SettlingMessage Metadata := .ofFields rfl (fun _ => rfl) (by simp) (by simp)

instance : SettlingMessage LastConfig := .ofFields rfl (fun _ => rfl) (by simp) (by simp)

instance : SettlingMessage OrdererBlockMetadata := .ofFields rfl (fun _ => rfl) (by simp) (by simp)

/-! ## Membership -/

instance : SettlingMessage SerializedIdentity := .ofFields rfl (fun _ => rfl) (by simp) (by simp)

instance : SettlingMessage MspConfig := .ofFields rfl (fun _ => rfl) (by simp) (by simp)

instance : SettlingMessage KeyInfo := .ofFields rfl (fun _ => rfl) (by simp) (by simp)

instance : SettlingMessage SigningIdentityInfo := .ofFields rfl (fun _ => rfl) (by simp) (by simp)

instance : SettlingMessage FabricCryptoConfig := .ofFields rfl (fun _ => rfl) (by simp) (by simp)

instance : SettlingMessage FabricOuIdentifier := .ofFields rfl (fun _ => rfl) (by simp) (by simp)

instance : SettlingMessage FabricNodeOus := .ofFields rfl (fun _ => rfl) (by simp) (by simp)

instance : SettlingMessage FabricMspConfig := .ofFields rfl (fun _ => rfl) (by simp) (by simp)

/-! ## Settings -/

instance : SettlingMessage HashingAlgorithm := .ofFields rfl (fun _ => rfl) (by simp) (by simp)

instance : SettlingMessage BlockDataHashingStructure := .ofFields rfl (fun _ => rfl) (by simp) (by simp)

instance : SettlingMessage OrdererAddresses := .ofFields rfl (fun _ => rfl) (by simp) (by simp)

instance : SettlingMessage Consortium := .ofFields rfl (fun _ => rfl) (by simp) (by simp)

instance : SettlingMessage Capability := .ofFields rfl (fun _ => rfl) (by simp) (by simp)

instance : SettlingMessage Capabilities := .ofFields rfl (fun _ => rfl) (by simp) (by simp)

instance : SettlingMessage BatchSize := .ofFields rfl (fun _ => rfl) (by simp) (by simp)

instance : SettlingMessage BatchTimeout := .ofFields rfl (fun _ => rfl) (by simp) (by simp)

instance : SettlingMessage ChannelRestrictions := .ofFields rfl (fun _ => rfl) (by simp) (by simp)

instance : SettlingMessage ConsensusType := .ofFields rfl (fun _ => rfl) (by simp) (by simp)

instance : SettlingMessage KafkaBrokers := .ofFields rfl (fun _ => rfl) (by simp) (by simp)

instance : SettlingMessage Consenter := .ofFields rfl (fun _ => rfl) (by simp) (by simp)

instance : SettlingMessage RaftOptions := .ofFields rfl (fun _ => rfl) (by simp) (by simp)

instance : SettlingMessage RaftMetadata := .ofFields rfl (fun _ => rfl) (by simp) (by simp)

instance : SettlingMessage Endpoints := .ofFields rfl (fun _ => rfl) (by simp) (by simp)

instance : SettlingMessage AnchorPeer := .ofFields rfl (fun _ => rfl) (by simp) (by simp)

instance : SettlingMessage AnchorPeers := .ofFields rfl (fun _ => rfl) (by simp) (by simp)

instance : SettlingMessage ApiResource := .ofFields rfl (fun _ => rfl) (by simp) (by simp)

instance : SettlingMessage Acls := .ofFields rfl (fun _ => rfl) (by simp) (by simp)

/-! ## All of them -/

namespace MessageKind

instance (kind : MessageKind) : SettlingMessage kind.Carrier := by
  cases kind <;> exact inferInstance

/-- Whatever bytes a message was read from, it is written as bytes from which the same message is
read, so that writing it again changes nothing. The bound is that of memory. -/
theorem decode_settles (kind : MessageKind) {bs : Bytes} {m : kind.Carrier}
    (hlength : bs.length < 9223372036854775808) (h : decode bs = .ok m) :
    decode (encode m) = .ok m ∧ kind.recode (encode m) = .ok (encode m) := by
  have hsettled := decode_encode_of_decode hlength h
  refine ⟨hsettled, ?_⟩
  rw [recode, hsettled]
  rfl

/-- A version in more digits than it needs, a field and a group that no message has, one child twice
and the first time without a value, a setting without a name, and the version again. -/
def strayBytes : Bytes :=
  [0x08, 0x85, 0x80, 0x00, 0x78, 0x01, 0x83, 0x01, 0x0d, 0x01, 0x02, 0x03, 0x04, 0x84, 0x01,
   0x2a, 0x01, 0x41, 0x12, 0x03, 0x0a, 0x01, 0x67, 0x12, 0x07, 0x0a, 0x01, 0x67, 0x12, 0x02, 0x08,
   0x01, 0x1a, 0x05, 0x12, 0x03, 0x12, 0x01, 0xff, 0x08, 0x02]

/-- The group read from the stray bytes. -/
def strayGroup : Group :=
  { version := 2
    groups := SortedFrom.ofList [("g", { version := 1 })]
    values := SortedFrom.ofList [("", { content := [0xff] })]
    modPolicy := "A" }

/-- A gate in two parts, the second of which cuts its number to 32 bits, after a signer. -/
def strayRule : Bytes :=
  [0x08, 0x07, 0x12, 0x02, 0x12, 0x00, 0x12, 0x06, 0x08, 0xff, 0xff, 0xff, 0xff, 0x1f]

theorem decode_settles_stray :
    (strayBytes.length < 9223372036854775808 ∧ decode strayBytes = .ok strayGroup ∧
      encode strayGroup ≠ strayBytes ∧ decode (encode strayGroup) = .ok strayGroup ∧
      configGroup.recode (encode strayGroup) = .ok (encode strayGroup)) ∧
    (strayRule.length < 9223372036854775808 ∧
      decode strayRule = .ok (SignaturePolicy.nOutOf (-1) [.untyped]) ∧
      strayRule.length < (encode (SignaturePolicy.nOutOf (-1) [.untyped])).length ∧
      decode (encode (SignaturePolicy.nOutOf (-1) [.untyped])) =
        .ok (SignaturePolicy.nOutOf (-1) [.untyped])) := by
  have hgroup : decode strayBytes = .ok strayGroup := eq_ok_of_toOption (by decide +kernel)
  have hrule : decode strayRule = .ok (SignaturePolicy.nOutOf (-1) [.untyped]) :=
    eq_ok_of_toOption (by decide +kernel)
  have hfits : strayBytes.length < 9223372036854775808 := by decide
  have hfits' : strayRule.length < 9223372036854775808 := by decide
  have hsettled := decode_settles configGroup hfits hgroup
  have hsettled' := decode_settles signaturePolicy hfits' hrule
  exact ⟨⟨hfits, hgroup, by decide +kernel, hsettled⟩, hfits', hrule, by decide +kernel,
    hsettled'.1⟩

end MessageKind

end ChannelConfig
