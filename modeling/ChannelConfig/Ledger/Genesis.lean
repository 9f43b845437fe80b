import ChannelConfig.Ledger.Block
import ChannelConfig.Ledger.Transaction

/-!
# Genesis blocks

The first block of a channel holds its configuration as the only transaction, unsigned.
`Block.config` reads the configuration of such a block.
-/

set_option autoImplicit false

namespace ChannelConfig

open Wire

def metadataSlots : Nat := 5

/-- The hash of the transactions of a block, one after the other. -/
def BlockData.hash (d : BlockData) : Bytes := Sha256.hash d.transactions.flatten

def Block.empty (number : UInt64) (previousHash : Bytes) : Block where
  header := some { number, previousHash }
  data := some {}
  metadata := some { slots := List.replicate metadataSlots [] }

def genesisTransaction (g : Group) (channelId : String) (stamp : Stamp) : Envelope where
  payload := encode (
    Address.payload { type := .config, channelId, version := 1 } stamp.seconds
      { nonce := stamp.nonce.bytes } (encode { config := some { channelGroup := g } : ConfigEnvelope }))

/-- The metadata of the first block: it is the last one with a configuration. The slot for
signatures says so, and the slot after it. -/
def genesisMetadata : BlockMetadata :=
  let lastConfig : LastConfig := { index := 0 }
  let signatures := encode { lastConfig := some lastConfig : OrdererBlockMetadata }
  { slots :=
      encode { value := signatures : Metadata } :: encode { value := encode lastConfig : Metadata } ::
        List.replicate (metadataSlots - 2) [] }

def genesisBlock (g : Group) (channelId : String) (stamp : Stamp) : Block :=
  let data : BlockData := { transactions := [encode (genesisTransaction g channelId stamp)] }
  { header := some { number := 0, dataHash := data.hash }
    data := some data
    metadata := some genesisMetadata }

/-- The configuration in the first transaction of a block. -/
def Block.config (b : Block) : Result Config :=
  match b.data.bind (·.transactions.head?) with
  | none => .invalid .noTransactions
  | some transaction => do
    let envelope : Envelope ← .ofDecode (decode transaction)
    let (payload, header) ← envelope.open
    if header.type ≠ HeaderType.config.number then .invalid (.notAConfigBlock header.type)
    else
      let content : ConfigEnvelope ← .ofDecode (decode payload.data)
      match content.config with
      | some config => .ok config
      | none => .invalid .noConfig

end ChannelConfig
