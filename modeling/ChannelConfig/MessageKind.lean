import ChannelConfig.Ledger.Block
import ChannelConfig.Tree.Config
import ChannelConfig.Value.Message
import ChannelConfig.Msp.Message

/-!
# The kinds of messages

`MessageKind` lists every message of the format; `MessageKind.Carrier` is its type.
-/

set_option autoImplicit false

namespace ChannelConfig

open Wire

inductive MessageKind where
  | block | blockHeader | blockData | blockMetadata
  | metadata | metadataSignature | lastConfig | ordererBlockMetadata
  | envelope | payload | header | timestamp | channelHeader | signatureHeader
  | configEnvelope | config | configUpdateEnvelope | configUpdate
  | configGroup | configValue | configPolicy | configSignature
  | policy | signaturePolicyEnvelope | signaturePolicy | nOutOf | implicitMetaPolicy
  | hashingAlgorithm | blockDataHashingStructure | ordererAddresses | consortium
  | capabilities | capability | endpoints
  | mspPrincipal | mspRole | serializedIdentity | mspConfig | fabricMspConfig
  | signingIdentityInfo | keyInfo | fabricCryptoConfig | fabricOuIdentifier | fabricNodeOus
  | batchSize | batchTimeout | consensusType | kafkaBrokers | channelRestrictions
  | configMetadata | consenter | options
  | anchorPeers | anchorPeer | acls | apiResource
  deriving DecidableEq, Repr

namespace MessageKind

abbrev Carrier : MessageKind → Type
  | block => Block
  | blockHeader => BlockHeader
  | blockData => BlockData
  | blockMetadata => BlockMetadata
  | metadata => Metadata
  | metadataSignature => MetadataSignature
  | lastConfig => LastConfig
  | ordererBlockMetadata => OrdererBlockMetadata
  | envelope => Envelope
  | payload => ChannelConfig.Payload
  | header => Header
  | timestamp => Timestamp
  | channelHeader => ChannelHeader
  | signatureHeader => SignatureHeader
  | configEnvelope => ConfigEnvelope
  | config => Config
  | configUpdateEnvelope => ConfigUpdateEnvelope
  | configUpdate => ConfigUpdate
  | configGroup => Group
  | configValue => ConfigValue
  | configPolicy => ConfigPolicy
  | configSignature => ConfigSignature
  | policy => Policy
  | signaturePolicyEnvelope => SignaturePolicyEnvelope
  | signaturePolicy => SignaturePolicy
  | nOutOf => NOutOf
  | implicitMetaPolicy => ImplicitMetaPolicy
  | hashingAlgorithm => HashingAlgorithm
  | blockDataHashingStructure => BlockDataHashingStructure
  | ordererAddresses => OrdererAddresses
  | consortium => Consortium
  | capabilities => Capabilities
  | capability => Capability
  | endpoints => Endpoints
  | mspPrincipal => MspPrincipal
  | mspRole => MspRole
  | serializedIdentity => SerializedIdentity
  | mspConfig => MspConfig
  | fabricMspConfig => FabricMspConfig
  | signingIdentityInfo => SigningIdentityInfo
  | keyInfo => KeyInfo
  | fabricCryptoConfig => FabricCryptoConfig
  | fabricOuIdentifier => FabricOuIdentifier
  | fabricNodeOus => FabricNodeOus
  | batchSize => BatchSize
  | batchTimeout => BatchTimeout
  | consensusType => ConsensusType
  | kafkaBrokers => KafkaBrokers
  | channelRestrictions => ChannelRestrictions
  | configMetadata => RaftMetadata
  | consenter => Consenter
  | options => RaftOptions
  | anchorPeers => AnchorPeers
  | anchorPeer => AnchorPeer
  | acls => Acls
  | apiResource => ApiResource

instance instMessage (kind : MessageKind) : Message kind.Carrier := by
  cases kind <;> exact inferInstance

def all : List MessageKind := [
  block, blockHeader, blockData, blockMetadata, metadata, metadataSignature, lastConfig,
  ordererBlockMetadata, envelope, payload, header, timestamp, channelHeader, signatureHeader,
  configEnvelope, config, configUpdateEnvelope, configUpdate, configGroup, configValue,
  configPolicy, configSignature, policy, signaturePolicyEnvelope, signaturePolicy, nOutOf,
  implicitMetaPolicy, hashingAlgorithm, blockDataHashingStructure, ordererAddresses, consortium,
  capabilities, capability, endpoints, mspPrincipal, mspRole, serializedIdentity, mspConfig,
  fabricMspConfig, signingIdentityInfo, keyInfo, fabricCryptoConfig, fabricOuIdentifier,
  fabricNodeOus, batchSize, batchTimeout, consensusType, kafkaBrokers, channelRestrictions,
  configMetadata, consenter, options, anchorPeers, anchorPeer, acls, apiResource]

/-- The name that the network's schema gives the message. -/
def name : MessageKind → String
  | block => "Block"
  | blockHeader => "BlockHeader"
  | blockData => "BlockData"
  | blockMetadata => "BlockMetadata"
  | metadata => "Metadata"
  | metadataSignature => "MetadataSignature"
  | lastConfig => "LastConfig"
  | ordererBlockMetadata => "OrdererBlockMetadata"
  | envelope => "Envelope"
  | payload => "Payload"
  | header => "Header"
  | timestamp => "Timestamp"
  | channelHeader => "ChannelHeader"
  | signatureHeader => "SignatureHeader"
  | configEnvelope => "ConfigEnvelope"
  | config => "Config"
  | configUpdateEnvelope => "ConfigUpdateEnvelope"
  | configUpdate => "ConfigUpdate"
  | configGroup => "ConfigGroup"
  | configValue => "ConfigValue"
  | configPolicy => "ConfigPolicy"
  | configSignature => "ConfigSignature"
  | policy => "Policy"
  | signaturePolicyEnvelope => "SignaturePolicyEnvelope"
  | signaturePolicy => "SignaturePolicy"
  | nOutOf => "NOutOf"
  | implicitMetaPolicy => "ImplicitMetaPolicy"
  | hashingAlgorithm => "HashingAlgorithm"
  | blockDataHashingStructure => "BlockDataHashingStructure"
  | ordererAddresses => "OrdererAddresses"
  | consortium => "Consortium"
  | capabilities => "Capabilities"
  | capability => "Capability"
  | endpoints => "Endpoints"
  | mspPrincipal => "MspPrincipal"
  | mspRole => "MspRole"
  | serializedIdentity => "SerializedIdentity"
  | mspConfig => "MspConfig"
  | fabricMspConfig => "FabricMspConfig"
  | signingIdentityInfo => "SigningIdentityInfo"
  | keyInfo => "KeyInfo"
  | fabricCryptoConfig => "FabricCryptoConfig"
  | fabricOuIdentifier => "FabricOuIdentifier"
  | fabricNodeOus => "FabricNodeOus"
  | batchSize => "BatchSize"
  | batchTimeout => "BatchTimeout"
  | consensusType => "ConsensusType"
  | kafkaBrokers => "KafkaBrokers"
  | channelRestrictions => "ChannelRestrictions"
  | configMetadata => "ConfigMetadata"
  | consenter => "Consenter"
  | options => "Options"
  | anchorPeers => "AnchorPeers"
  | anchorPeer => "AnchorPeer"
  | acls => "Acls"
  | apiResource => "ApiResource"

def ofName? (s : String) : Option MessageKind := all.find? (·.name = s)

/-- Decodes a message of this kind and encodes it again. -/
def recode (kind : MessageKind) (bs : Bytes) : Except DecodeError Bytes :=
  (decode (M := kind.Carrier) bs).map encode

end MessageKind

end ChannelConfig
