import ChannelConfig.Msp.Material
import ChannelConfig.Value.Message

/-!
# Profiles

A profile describes a channel: who orders, who takes part, and under which policies. A
`ProfileDocument` holds named profiles and a list of shared organizations, to which the sections of a
profile may refer by name.
-/

set_option autoImplicit false

namespace ChannelConfig

/-- A policy as written; the type says how the rule is to be read. -/
structure PolicyDef where
  type : String
  rule : String
  deriving DecidableEq, Repr

namespace PolicyDef

def implicitMetaType : String := "ImplicitMeta"

def signatureType : String := "Signature"

def implicitMeta (rule : String) : PolicyDef := ⟨implicitMetaType, rule⟩

def signature (rule : String) : PolicyDef := ⟨signatureType, rule⟩

end PolicyDef

/-- An organization as a section lists it. -/
structure Organization where
  name : String := ""
  mspId : String := ""
  mspDir : Path := ⟨""⟩
  mspType : String := bccspType
  policies : NameMap PolicyDef := .nil
  anchorPeers : List AnchorPeer := []
  ordererEndpoints : List String := []
  /-- The organization's material is out of reach; its group stays empty. -/
  skipAsForeign : Bool := false
  /-- Listed by its name only. -/
  reference : Bool := false
  deriving DecidableEq, Repr

def Organization.named (name : String) : Organization := { name, reference := true }

/-! ## Sections -/

structure ApplicationSection where
  organizations : List Organization := []
  /-- Capabilities by name, and whether they are enabled. -/
  capabilities : NameMap Bool := .nil
  policies : NameMap PolicyDef := .nil
  /-- Policies by the resource that they guard. -/
  acls : NameMap String := .nil
  deriving DecidableEq, Repr

/-- A member of a raft cluster, with the files that hold its certificates. -/
structure ConsenterDef where
  host : String
  port : UInt32
  clientTlsCert : Path
  serverTlsCert : Path
  deriving DecidableEq, Repr

namespace RaftOptions

/-- The options of a cluster that sets none. -/
def standard : RaftOptions where
  tickInterval := "500ms"
  electionTick := 10
  heartbeatTick := 1
  maxInflightBlocks := 5
  snapshotIntervalSize := 16 * 1024 * 1024

end RaftOptions

structure RaftSection where
  consenters : List ConsenterDef := []
  options : RaftOptions := .standard
  deriving DecidableEq, Repr

namespace BatchSize

/-- The batch size of an ordering service that sets none. -/
def standard : BatchSize where
  maxMessageCount := 500
  absoluteMaxBytes := 10 * 1024 * 1024
  preferredMaxBytes := 2 * 1024 * 1024

end BatchSize

structure OrdererSection where
  ordererType : String := "solo"
  addresses : List String := []
  batchTimeout : String := "2s"
  batchSize : BatchSize := .standard
  kafkaBrokers : List String := []
  etcdRaft : Option RaftSection := none
  organizations : List Organization := []
  /-- How many channels there may be; 0 sets no limit. -/
  maxChannels : UInt64 := 0
  capabilities : NameMap Bool := .nil
  policies : NameMap PolicyDef := .nil
  deriving DecidableEq, Repr

structure ConsortiumSection where
  organizations : List Organization := []
  deriving DecidableEq, Repr

structure Profile where
  consortium : Option String := none
  application : Option ApplicationSection := none
  orderer : Option OrdererSection := none
  consortiums : Option (NameMap ConsortiumSection) := none
  capabilities : NameMap Bool := .nil
  policies : NameMap PolicyDef := .nil
  deriving DecidableEq, Repr

namespace Profile

/-- The organizations of the orderer, then those of the application and of the consortiums. -/
def allOrganizations (p : Profile) : List Organization :=
  ((p.orderer.map (·.organizations)).getD []) ++ ((p.application.map (·.organizations)).getD []) ++
    ((p.consortiums.map fun m => m.values.flatMap (·.organizations)).getD [])

/-- The files with the certificates of consenters. -/
def certificateFiles (p : Profile) : List Path :=
  let consenters := ((p.orderer.bind (·.etcdRaft)).map (·.consenters)).getD []
  consenters.flatMap fun c => [c.clientTlsCert, c.serverTlsCert]

end Profile

structure ProfileDocument where
  profiles : NameMap Profile := .nil
  /-- Organizations that sections may refer to. -/
  organizations : List Organization := []
  deriving DecidableEq, Repr

end ChannelConfig
