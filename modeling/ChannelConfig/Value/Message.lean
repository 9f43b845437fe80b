import ChannelConfig.Wire.Format

/-!
# Settings on the wire

The payloads of the well-known values of the tree, apart from those that belong to policies and
membership.
-/

set_option autoImplicit false

namespace ChannelConfig

open Wire

/-! ## Channel -/

structure HashingAlgorithm where
  name : String := ""
  deriving DecidableEq, Repr

instance : Message HashingAlgorithm where
  codec := .ofFields (.cons 1 .text .nil) (fun m => (m.name, ())) (fun (name, _) => { name })

structure BlockDataHashingStructure where
  width : UInt32 := 0
  deriving DecidableEq, Repr

instance : Message BlockDataHashingStructure where
  codec := .ofFields (.cons 1 .uint32 .nil) (fun m => (m.width, ())) (fun (width, _) => { width })

structure OrdererAddresses where
  addresses : List String := []
  deriving DecidableEq, Repr

instance : Message OrdererAddresses where
  codec := .ofFields (.cons 1 (.repeated .text) .nil)
    (fun m => (m.addresses, ())) (fun (addresses, _) => { addresses })

structure Consortium where
  name : String := ""
  deriving DecidableEq, Repr

instance : Message Consortium where
  codec := .ofFields (.cons 1 .text .nil) (fun m => (m.name, ())) (fun (name, _) => { name })

/-- A capability carries nothing but the name it is listed under. -/
structure Capability where
  deriving DecidableEq, Repr

instance : Message Capability where
  codec := .ofFields .nil (fun _ => ()) (fun _ => {})

structure Capabilities where
  capabilities : NameMap Capability := .nil
  deriving DecidableEq, Repr

instance : Message Capabilities where
  codec := .ofFields (.cons 1 (.map (message Capability)) .nil)
    (fun m => (m.capabilities, ())) (fun (capabilities, _) => { capabilities })

/-! ## Ordering service -/

structure BatchSize where
  maxMessageCount : UInt32 := 0
  absoluteMaxBytes : UInt32 := 0
  preferredMaxBytes : UInt32 := 0
  deriving DecidableEq, Repr

instance : Message BatchSize where
  codec := .ofFields (.cons 1 .uint32 <| .cons 2 .uint32 <| .cons 3 .uint32 .nil)
    (fun m => (m.maxMessageCount, m.absoluteMaxBytes, m.preferredMaxBytes, ()))
    (fun (maxMessageCount, absoluteMaxBytes, preferredMaxBytes, _) =>
      { maxMessageCount, absoluteMaxBytes, preferredMaxBytes })

structure BatchTimeout where
  timeout : String := ""
  deriving DecidableEq, Repr

instance : Message BatchTimeout where
  codec := .ofFields (.cons 1 .text .nil) (fun m => (m.timeout, ())) (fun (timeout, _) => { timeout })

structure ChannelRestrictions where
  maxCount : UInt64 := 0
  deriving DecidableEq, Repr

instance : Message ChannelRestrictions where
  codec := .ofFields (.cons 1 .uint64 .nil)
    (fun m => (m.maxCount, ())) (fun (maxCount, _) => { maxCount })

structure ConsensusType where
  type : String := ""
  metadata : Bytes := []
  state : Int32 := 0
  deriving DecidableEq, Repr

instance : Message ConsensusType where
  codec := .ofFields (.cons 1 .text <| .cons 2 .bytes <| .cons 3 .int32 .nil)
    (fun m => (m.type, m.metadata, m.state, ()))
    (fun (type, metadata, state, _) => { type, metadata, state })

structure KafkaBrokers where
  brokers : List String := []
  deriving DecidableEq, Repr

instance : Message KafkaBrokers where
  codec := .ofFields (.cons 1 (.repeated .text) .nil)
    (fun m => (m.brokers, ())) (fun (brokers, _) => { brokers })

/-! ## Metadata of raft consensus -/

structure Consenter where
  host : String := ""
  port : UInt32 := 0
  clientTlsCert : Bytes := []
  serverTlsCert : Bytes := []
  deriving DecidableEq, Repr

instance : Message Consenter where
  codec := .ofFields
    (.cons 1 .text <| .cons 2 .uint32 <| .cons 3 .bytes <| .cons 4 .bytes .nil)
    (fun m => (m.host, m.port, m.clientTlsCert, m.serverTlsCert, ()))
    (fun (host, port, clientTlsCert, serverTlsCert, _) =>
      { host, port, clientTlsCert, serverTlsCert })

structure RaftOptions where
  tickInterval : String := ""
  electionTick : UInt32 := 0
  heartbeatTick : UInt32 := 0
  maxInflightBlocks : UInt32 := 0
  snapshotIntervalSize : UInt32 := 0
  deriving DecidableEq, Repr

instance : Message RaftOptions where
  codec := .ofFields
    (.cons 1 .text <| .cons 2 .uint32 <| .cons 3 .uint32 <| .cons 4 .uint32 <| .cons 5 .uint32 .nil)
    (fun m => (m.tickInterval, m.electionTick, m.heartbeatTick, m.maxInflightBlocks,
      m.snapshotIntervalSize, ()))
    (fun (tickInterval, electionTick, heartbeatTick, maxInflightBlocks, snapshotIntervalSize, _) =>
      { tickInterval, electionTick, heartbeatTick, maxInflightBlocks, snapshotIntervalSize })

structure RaftMetadata where
  consenters : List Consenter := []
  options : Option RaftOptions := none
  deriving DecidableEq, Repr

instance : Message RaftMetadata where
  codec := .ofFields
    (.cons 1 (.repeated (message Consenter)) <| .cons 2 (.optional (message RaftOptions)) .nil)
    (fun m => (m.consenters, m.options, ()))
    (fun (consenters, options, _) => { consenters, options })

/-! ## Organizations and applications -/

structure Endpoints where
  addresses : List String := []
  deriving DecidableEq, Repr

instance : Message Endpoints where
  codec := .ofFields (.cons 1 (.repeated .text) .nil)
    (fun m => (m.addresses, ())) (fun (addresses, _) => { addresses })

structure AnchorPeer where
  host : String := ""
  port : Int32 := 0
  deriving DecidableEq, Repr

instance : Message AnchorPeer where
  codec := .ofFields (.cons 1 .text <| .cons 2 .int32 .nil)
    (fun m => (m.host, m.port, ()))
    (fun (host, port, _) => { host, port })

structure AnchorPeers where
  anchorPeers : List AnchorPeer := []
  deriving DecidableEq, Repr

instance : Message AnchorPeers where
  codec := .ofFields (.cons 1 (.repeated (message AnchorPeer)) .nil)
    (fun m => (m.anchorPeers, ())) (fun (anchorPeers, _) => { anchorPeers })

/-- The policy that guards an API resource. -/
structure ApiResource where
  policyRef : String := ""
  deriving DecidableEq, Repr

instance : Message ApiResource where
  codec := .ofFields (.cons 1 .text .nil)
    (fun m => (m.policyRef, ())) (fun (policyRef, _) => { policyRef })

structure Acls where
  acls : NameMap ApiResource := .nil
  deriving DecidableEq, Repr

instance : Message Acls where
  codec := .ofFields (.cons 1 (.map (message ApiResource)) .nil)
    (fun m => (m.acls, ())) (fun (acls, _) => { acls })

end ChannelConfig
