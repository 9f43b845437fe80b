import ChannelConfig.Ledger.Genesis
import ChannelConfig.Proofs.Channel.Build
import ChannelConfig.Proofs.Ledger.Transaction

/-! Genesis blocks read back. A block, the transaction in it, its payload and the data of that are
messages inside messages, and `Block.config` undoes one after the other. Only the innermost holds a
tree, and two levels are spent around its root (`ConfigEnvelope.nesting_eq`). -/

set_option autoImplicit false

namespace ChannelConfig

open Wire

/-! ## Blocks -/

theorem Block.length_transaction_le {b : Block} {d : BlockData} {transaction : Bytes}
    (hb : b.data = some d) (hd : transaction ∈ d.transactions) :
    transaction.length ≤ (encode b).length := by
  have hdata : transaction.length ≤ (encode d).length :=
    Fields.length_le_of_head (Field.length_toBytes_le_repeated 1 .bytes hd)
  refine Nat.le_trans hdata (Fields.length_le_of_tail (Fields.length_le_of_head ?_))
  rw [hb]
  exact Field.length_toBytes_le_some 2 (message BlockData) d

/-- The value in a slot, under its signatures. -/
def BlockMetadata.Says {M : Type} [Message M] (m : BlockMetadata) (slot : Nat) (value : M) : Prop :=
  ∃ bytes signed, m.slots[slot]? = some bytes ∧ decode bytes = .ok (signed : Metadata) ∧
    decode signed.value = .ok value

/-- A block that opens a channel: it is the first one, and the last with a configuration. -/
structure Block.IsFirst (b : Block) (d : BlockData) (m : BlockMetadata) : Prop where
  header : b.header = some { number := 0, previousHash := [], dataHash := d.hash }
  data : b.data = some d
  transactions : d.transactions.length = 1
  metadata : b.metadata = some m
  slots : m.slots.length = 5
  ordererMetadata : ∃ consenterMetadata,
    m.Says 0 ({ lastConfig := some { index := 0 }, consenterMetadata } : OrdererBlockMetadata)
  lastConfig : m.Says 1 ({ index := 0 } : LastConfig)

/-! ## Configurations -/

theorem ConfigEnvelope.nesting_eq (g : Group) :
    nesting ({ config := some { channelGroup := g } } : ConfigEnvelope) = g.nesting + 2 := by
  show max (max 0 (max (g.nesting + 1) 0) + 1) (max 0 0) = g.nesting + 2
  omega

/-- The first transaction of a block, opened as far as its data. -/
theorem Block.config_of_transaction {b : Block} {d : BlockData} {rest : List Bytes} {e : Envelope}
    {a : Address} {seconds : Int64} {header : SignatureHeader} {data : Bytes}
    (hb : b.data = some d) (hd : d.transactions = encode e :: rest)
    (he : e.payload = encode (a.payload seconds header data)) (htype : a.type = .config)
    (hlength : (encode b).length < UInt64.size) :
    data.length < UInt64.size ∧ b.config = (do
      let content : ConfigEnvelope ← .ofDecode (decode data)
      match content.config with
      | some config => .ok config
      | none => .invalid .noConfig) := by
  have htransaction : (encode e).length < UInt64.size :=
    Nat.lt_of_le_of_lt (length_transaction_le hb (hd ▸ List.mem_cons_self ..)) hlength
  have hpayload : e.payload.length < UInt64.size :=
    Nat.lt_of_le_of_lt (Envelope.length_payload_le e) htransaction
  have hdata := Payload.length_data_le (a.payload seconds header data)
  rw [← he] at hdata
  refine ⟨Nat.lt_of_le_of_lt hdata hpayload, ?_⟩
  have hdecode := decode_encode_of_flat (by decide) htransaction
  rw [Block.config, hb, Option.bind_some, hd, List.head?_cons]
  simp only [hdecode]
  show (e.open >>= _) = _
  rw [Envelope.open_payload he hpayload]
  show (if a.type.number ≠ _ then _ else _) = _
  rw [htype, if_neg (by simp)]
  rfl

/-! ## Genesis blocks -/

section

variable {g : Group} {channelId : String} {stamp : Stamp}

theorem isFirst_genesisBlock : (genesisBlock g channelId stamp).IsFirst
    { transactions := [encode (genesisTransaction g channelId stamp)] } genesisMetadata where
  header := rfl
  data := rfl
  transactions := rfl
  metadata := rfl
  slots := rfl
  ordererMetadata := by
    refine ⟨[], _, { value := encode { lastConfig := some { index := 0 } : OrdererBlockMetadata } },
      rfl, ?_, ?_⟩
    · exact decode_encode_of_le (by decide +kernel) (by decide +kernel)
    · exact decode_encode_of_le (by decide +kernel) (by decide +kernel)
  lastConfig := by
    refine ⟨_, { value := encode ({ index := 0 } : LastConfig) }, rfl, ?_, ?_⟩
    · exact decode_encode_of_le (by decide +kernel) (by decide +kernel)
    · exact decode_encode_of_le (by decide +kernel) (by decide +kernel)

theorem config_genesisBlock
    (hlength : (encode (genesisBlock g channelId stamp)).length < UInt64.size) :
    (genesisBlock g channelId stamp).config =
      if g.nesting ≤ 98 then .ok { channelGroup := some g } else .error (.decode .tooDeep) := by
  obtain ⟨hdata, hconfig⟩ := Block.config_of_transaction
    (b := genesisBlock g channelId stamp) rfl rfl rfl rfl hlength
  have hlevels : g.nesting + 2 ≤ maxLevels ↔ g.nesting ≤ 98 := by
    rw [maxLevels]
    omega
  rw [hconfig, decode_encode_eq hdata, ConfigEnvelope.nesting_eq]
  simp only [hlevels]
  split <;> rfl

/-- A genesis block gives back the tree it was made of, unless the tree is too deep to be read. -/
theorem genesisBlock_gives_back
    (hlength : (encode (genesisBlock g channelId stamp)).length < UInt64.size) :
    (∃ d m, (genesisBlock g channelId stamp).IsFirst d m) ∧
      decode (encode (genesisBlock g channelId stamp)) = .ok (genesisBlock g channelId stamp) ∧
      ((genesisBlock g channelId stamp).config =
        if g.nesting ≤ 98 then .ok { sequence := 0, channelGroup := some g }
        else .error (.decode .tooDeep)) ∧
      ∀ loader p, Profile.channelGroup loader p = .ok g →
        (genesisBlock g channelId stamp).config = .ok { sequence := 0, channelGroup := some g } := by
  refine ⟨⟨_, _, isFirst_genesisBlock⟩, ?_, config_genesisBlock hlength, fun loader p hp => ?_⟩
  · exact decode_encode_of_flat (by decide) hlength
  · -- the groups of a built tree end three levels below its root
    have hshallow := (Profile.isSection_of_channelGroup hp).isNew.nesting_le
    rw [config_genesisBlock hlength, if_pos (by omega)]

end

theorem genesisBlock_gives_back_small :
    Profile.small.channelGroup (MaterialStore.loader {}) = .ok Group.small ∧
      (genesisBlock .small "mychannel" ⟨.ofBytes [1, 2, 3], 1700000000⟩).config =
        .ok { sequence := 0, channelGroup := some .small } := by
  refine ⟨Profile.channelGroup_small, ?_⟩
  exact (genesisBlock_gives_back (by decide +kernel)).2.2.2 _ _ Profile.channelGroup_small

end ChannelConfig
