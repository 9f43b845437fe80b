import ChannelConfig.Tree.Edit
import ChannelConfig.Value.Message
import ChannelConfig.Msp.Message
import ChannelConfig.Json

/-!
# Well-known values

The network knows fifteen names of values, and the name fixes the type of the payload.
`StandardValue.encode` and `StandardValue.decode` are the two directions between value and payload.
-/

set_option autoImplicit false

namespace ChannelConfig

inductive StandardValue where
  | hashingAlgorithm (v : HashingAlgorithm)
  | blockDataHashingStructure (v : BlockDataHashingStructure)
  | ordererAddresses (v : OrdererAddresses)
  | consortium (v : Consortium)
  | capabilities (v : Capabilities)
  | batchSize (v : BatchSize)
  | batchTimeout (v : BatchTimeout)
  | channelRestrictions (v : ChannelRestrictions)
  | consensusType (v : ConsensusType)
  | kafkaBrokers (v : KafkaBrokers)
  | msp (v : MspConfig)
  | anchorPeers (v : AnchorPeers)
  | endpoints (v : Endpoints)
  | acls (v : Acls)
  | channelCreationPolicy (v : Policy)
  deriving DecidableEq, Repr

namespace StandardValue

/-- The name under which the value stands in a group. -/
def key : StandardValue → String
  | hashingAlgorithm _ => "HashingAlgorithm"
  | blockDataHashingStructure _ => "BlockDataHashingStructure"
  | ordererAddresses _ => "OrdererAddresses"
  | consortium _ => "Consortium"
  | capabilities _ => "Capabilities"
  | batchSize _ => "BatchSize"
  | batchTimeout _ => "BatchTimeout"
  | channelRestrictions _ => "ChannelRestrictions"
  | consensusType _ => "ConsensusType"
  | kafkaBrokers _ => "KafkaBrokers"
  | msp _ => "MSP"
  | anchorPeers _ => "AnchorPeers"
  | endpoints _ => "Endpoints"
  | acls _ => "ACLs"
  | channelCreationPolicy _ => "ChannelCreationPolicy"

def encode : StandardValue → Bytes
  | hashingAlgorithm v => Wire.encode v
  | blockDataHashingStructure v => Wire.encode v
  | ordererAddresses v => Wire.encode v
  | consortium v => Wire.encode v
  | capabilities v => Wire.encode v
  | batchSize v => Wire.encode v
  | batchTimeout v => Wire.encode v
  | channelRestrictions v => Wire.encode v
  | consensusType v => Wire.encode v
  | kafkaBrokers v => Wire.encode v
  | msp v => Wire.encode v
  | anchorPeers v => Wire.encode v
  | endpoints v => Wire.encode v
  | acls v => Wire.encode v
  | channelCreationPolicy v => Wire.encode v

/-- Reads the payload that stands under a name. -/
def decode (key : String) (bs : Bytes) : Result StandardValue :=
  let read {M : Type} [Wire.Message M] (f : M → StandardValue) : Result StandardValue :=
    (Result.ofDecode (Wire.decode bs)).map f
  match key with
  | "HashingAlgorithm" => read hashingAlgorithm
  | "BlockDataHashingStructure" => read blockDataHashingStructure
  | "OrdererAddresses" => read ordererAddresses
  | "Consortium" => read consortium
  | "Capabilities" => read capabilities
  | "BatchSize" => read batchSize
  | "BatchTimeout" => read batchTimeout
  | "ChannelRestrictions" => read channelRestrictions
  | "ConsensusType" => read consensusType
  | "KafkaBrokers" => read kafkaBrokers
  | "MSP" => read msp
  | "AnchorPeers" => read anchorPeers
  | "Endpoints" => read endpoints
  | "ACLs" => read acls
  | "ChannelCreationPolicy" => read channelCreationPolicy
  | key => .invalid (.unknownValue key)

/-- The names of capabilities, as a value. -/
def ofCapabilities (names : List String) : StandardValue :=
  .capabilities ⟨.ofList (names.map (·, {}))⟩

/-- Puts the value into a group under its name. -/
def addTo (v : StandardValue) (g : Group) (modPolicy : String) : Group :=
  g.setValue v.key v.encode modPolicy

/-! ## View -/

def mspJson (v : MspConfig) : Json :=
  match (Wire.decode v.config : Except Wire.DecodeError FabricMspConfig) with
  | .ok fabric => .object [
      ("type", .int v.type.toInt), ("name", fabric.name),
      ("root_certs", .nat fabric.rootCerts.length),
      ("intermediate_certs", .nat fabric.intermediateCerts.length),
      ("admins", .nat fabric.admins.length), ("tls_root_certs", .nat fabric.tlsRootCerts.length),
      ("node_ous", (fabric.fabricNodeOus.map (·.enable)).getD false)]
  | .error _ => .object [("type", .int v.type.toInt), ("config", .hex v.config)]

def policyJson (v : Policy) : Json :=
  match AccessPolicy.renderMessage v with
  | .ok text => .object [("policy", text)]
  | .error _ => .object [("type", .int v.type.toInt), ("value", .hex v.value)]

/-- The value as inspection shows it. -/
def toJson : StandardValue → Json
  | hashingAlgorithm v => .object [("name", v.name)]
  | blockDataHashingStructure v => .object [("width", .nat v.width.toNat)]
  | ordererAddresses v => .object [("addresses", .strings v.addresses)]
  | consortium v => .object [("name", v.name)]
  | capabilities v => .object [("capabilities", .strings v.capabilities.names)]
  | batchSize v => .object [
      ("max_message_count", .nat v.maxMessageCount.toNat),
      ("absolute_max_bytes", .nat v.absoluteMaxBytes.toNat),
      ("preferred_max_bytes", .nat v.preferredMaxBytes.toNat)]
  | batchTimeout v => .object [("timeout", v.timeout)]
  | channelRestrictions v => .object [("max_count", .nat v.maxCount.toNat)]
  | consensusType v => .object [
      ("type", v.type), ("metadata", .hex v.metadata), ("state", .int v.state.toInt)]
  | kafkaBrokers v => .object [("brokers", .strings v.brokers)]
  | msp v => mspJson v
  | anchorPeers v => .object [
      ("anchor_peers", .arr (v.anchorPeers.map fun p =>
        .object [("host", p.host), ("port", .int p.port.toInt)]))]
  | endpoints v => .object [("addresses", .strings v.addresses)]
  | acls v => .object [("acls", .obj (v.acls.map fun _ r => .str r.policyRef))]
  | channelCreationPolicy v => policyJson v

end StandardValue

end ChannelConfig
