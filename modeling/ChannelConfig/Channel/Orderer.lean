import ChannelConfig.Channel.Organization
import ChannelConfig.Duration

/-!
# The orderer group

Holds how the ordering service cuts blocks and how its nodes agree, and the organizations that run
them.
-/

set_option autoImplicit false

namespace ChannelConfig

/-- Durations stay text in the tree; each must be readable and positive. -/
def checkDuration (setting value : String) : Result Unit :=
  match Duration.parse value with
  | .ok d => if d.nanoseconds = 0 then .invalid (.zeroDuration setting value) else .ok ()
  | .error fault => .invalid (.badDuration setting value fault)

/-- The names of the capabilities that are enabled, as a value. -/
def enabledCapabilities (capabilities : NameMap Bool) : StandardValue :=
  .capabilities ⟨capabilities.filterMap fun _ enabled => if enabled then some {} else none⟩

/-! ## Consensus -/

def soloType : String := "solo"
def kafkaType : String := "kafka"
def raftType : String := "etcdraft"

/-- The consenter with the contents of its certificate files. -/
def ConsenterDef.load (loader : MaterialLoader) (c : ConsenterDef) : Result Consenter :=
  let read (path : Path) (task : Task) : Result Bytes :=
    (loader.readPath path).mapError fun fault => .collaborator [] task (.load fault)
  do
    let clientTlsCert ← read c.clientTlsCert (.readClientCert c.host c.port)
    let serverTlsCert ← read c.serverTlsCert (.readServerCert c.host c.port)
    return { host := c.host, port := c.port, clientTlsCert, serverTlsCert }

def RaftSection.metadata (loader : MaterialLoader) (s : RaftSection) : Result RaftMetadata := do
  let consenters ← s.consenters.mapM (·.load loader)
  checkDuration "tick interval" s.options.tickInterval
  return { consenters, options := some s.options }

namespace OrdererSection

/-- What the nodes of the service must know to agree. -/
def consensusMetadata (loader : MaterialLoader) (s : OrdererSection) : Result Bytes :=
  if s.ordererType = soloType ∨ s.ordererType = kafkaType then .ok []
  else if s.ordererType = raftType then
    match s.etcdRaft with
    | some raft => (raft.metadata loader).map Wire.encode
    | none => .invalid .noRaftSection
  else .invalid (.unknownOrdererType s.ordererType)

def group (loader : MaterialLoader) (s : OrdererSection) : Result Group := do
  let g ← Result.within .ordererPolicies (Group.ofPolicies s.policies ordererPolicies)
  checkDuration "batch timeout" s.batchTimeout
  let metadata ← s.consensusMetadata loader
  let g := ((g.withValue (.batchSize s.batchSize)).withValue
      (.batchTimeout { timeout := s.batchTimeout })).withValue
    (.channelRestrictions { maxCount := s.maxChannels })
  let g := (g.withValueIf (!s.capabilities.isEmpty) (enabledCapabilities s.capabilities)).withValueIf
    (s.ordererType = kafkaType) (.kafkaBrokers { brokers := s.kafkaBrokers })
  let g := g.withValue (.consensusType { type := s.ordererType, metadata })
  g.withOrganizations .ordererOrganization (·.ordererGroup loader) s.organizations

end OrdererSection

end ChannelConfig
