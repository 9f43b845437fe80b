import ChannelConfig.Datum
import ChannelConfig.Profile.Basic

/-!
# Reading profile documents

How a profile document is read from data. Fields that are not known do not count, and a field that
is missing has its standard value, unless there is none. A section may also be given as the list of
its fields' values. Within the listing of an organization such a list must not be too long; elsewhere
that depends on where the data came from.
-/

set_option autoImplicit false

namespace ChannelConfig

open Datum

def Path.ofDatum (d : Datum) : Option Path := d.asText.map Path.mk

def PolicyDef.ofDatum (surplus : Surplus) (d : Datum) : Option PolicyDef := do
  let field ← d.fields surplus ["type", "rule"]
  return {
    type := ← required asText (field "type")
    rule := ← required asText (field "rule") }

def policiesOfDatum (surplus : Surplus) : Datum → Option (NameMap PolicyDef) :=
  asMap (PolicyDef.ofDatum surplus)

def AnchorPeer.ofDatum (surplus : Surplus) (d : Datum) : Option AnchorPeer := do
  let field ← d.fields surplus ["host", "port"]
  return {
    host := ← required asText (field "host")
    port := ← required asInt32 (field "port") }

/-! ## Organizations -/

namespace Organization

/-- An organization with its definition. -/
def ofFields (d : Datum) : Option Organization := do
  let field ← d.fields .refused ["name", "id", "msp_dir", "msp_type", "policies", "anchor_peers",
    "orderer_endpoints", "skip_as_foreign"]
  return {
    name := ← required asText (field "name")
    mspId := ← required asText (field "id")
    mspDir := ← orElse ⟨""⟩ Path.ofDatum (field "msp_dir")
    mspType := ← orElse bccspType asText (field "msp_type")
    policies := ← orElse .nil (policiesOfDatum .refused) (field "policies")
    anchorPeers := ← orElse [] (asList (AnchorPeer.ofDatum .refused)) (field "anchor_peers")
    ordererEndpoints := ← orElse [] (asList asText) (field "orderer_endpoints")
    skipAsForeign := ← orElse false asBool (field "skip_as_foreign") }

/-- A name alone refers to a shared organization. -/
def ofDatum : Datum → Option Organization
  | .text name => some (.named name)
  | d => ofFields d

end Organization

def organizationsOfDatum : Datum → Option (List Organization) := asList Organization.ofDatum

/-! ## Sections -/

section

variable (surplus : Surplus)

def ApplicationSection.ofDatum (d : Datum) : Option ApplicationSection := do
  let field ← d.fields surplus ["organizations", "capabilities", "policies", "acls"]
  return {
    organizations := ← orElse [] organizationsOfDatum (field "organizations")
    capabilities := ← orElse .nil (asMap asBool) (field "capabilities")
    policies := ← orElse .nil (policiesOfDatum surplus) (field "policies")
    acls := ← orElse .nil (asMap asText) (field "acls") }

def BatchSize.ofDatum (d : Datum) : Option BatchSize := do
  let field ← d.fields surplus ["max_message_count", "absolute_max_bytes", "preferred_max_bytes"]
  let standard := BatchSize.standard
  return {
    maxMessageCount := ← orElse standard.maxMessageCount asUInt32 (field "max_message_count")
    absoluteMaxBytes := ← orElse standard.absoluteMaxBytes asUInt32 (field "absolute_max_bytes")
    preferredMaxBytes := ← orElse standard.preferredMaxBytes asUInt32 (field "preferred_max_bytes") }

/-- The brokers in the section of that name. -/
def kafkaBrokersOfDatum (d : Datum) : Option (List String) := do
  let field ← d.fields surplus ["brokers"]
  orElse [] (asList asText) (field "brokers")

def ConsenterDef.ofDatum (d : Datum) : Option ConsenterDef := do
  let field ← d.fields surplus ["host", "port", "client_tls_cert", "server_tls_cert"]
  return {
    host := ← required asText (field "host")
    port := ← required asUInt32 (field "port")
    clientTlsCert := ← required Path.ofDatum (field "client_tls_cert")
    serverTlsCert := ← required Path.ofDatum (field "server_tls_cert") }

def RaftOptions.ofDatum (d : Datum) : Option RaftOptions := do
  let field ← d.fields surplus ["tick_interval", "election_tick", "heartbeat_tick",
    "max_inflight_blocks", "snapshot_interval_size"]
  let standard := RaftOptions.standard
  return {
    tickInterval := ← orElse standard.tickInterval asText (field "tick_interval")
    electionTick := ← orElse standard.electionTick asUInt32 (field "election_tick")
    heartbeatTick := ← orElse standard.heartbeatTick asUInt32 (field "heartbeat_tick")
    maxInflightBlocks := ← orElse standard.maxInflightBlocks asUInt32 (field "max_inflight_blocks")
    snapshotIntervalSize :=
      ← orElse standard.snapshotIntervalSize asUInt32 (field "snapshot_interval_size") }

def RaftSection.ofDatum (d : Datum) : Option RaftSection := do
  let field ← d.fields surplus ["consenters", "options"]
  return {
    consenters := ← orElse [] (asList (ConsenterDef.ofDatum surplus)) (field "consenters")
    options := ← orElse .standard (RaftOptions.ofDatum surplus) (field "options") }

def OrdererSection.ofDatum (d : Datum) : Option OrdererSection := do
  let field ← d.fields surplus ["orderer_type", "addresses", "batch_timeout", "batch_size", "kafka",
    "etcd_raft", "organizations", "max_channels", "capabilities", "policies"]
  let standard : OrdererSection := {}
  return {
    ordererType := ← orElse standard.ordererType asText (field "orderer_type")
    addresses := ← orElse [] (asList asText) (field "addresses")
    batchTimeout := ← orElse standard.batchTimeout asText (field "batch_timeout")
    batchSize := ← orElse .standard (BatchSize.ofDatum surplus) (field "batch_size")
    kafkaBrokers := ← orElse [] (kafkaBrokersOfDatum surplus) (field "kafka")
    etcdRaft := ← orElse none (asOption (RaftSection.ofDatum surplus)) (field "etcd_raft")
    organizations := ← orElse [] organizationsOfDatum (field "organizations")
    maxChannels := ← orElse 0 asUInt64 (field "max_channels")
    capabilities := ← orElse .nil (asMap asBool) (field "capabilities")
    policies := ← orElse .nil (policiesOfDatum surplus) (field "policies") }

def ConsortiumSection.ofDatum (d : Datum) : Option ConsortiumSection := do
  let field ← d.fields surplus ["organizations"]
  return { organizations := ← orElse [] organizationsOfDatum (field "organizations") }

/-! ## Profiles and documents -/

def Profile.ofDatum (d : Datum) : Option Profile := do
  let field ← d.fields surplus ["consortium", "application", "orderer", "consortiums",
    "capabilities", "policies"]
  return {
    consortium := ← orElse none (asOption asText) (field "consortium")
    application := ← orElse none (asOption (ApplicationSection.ofDatum surplus)) (field "application")
    orderer := ← orElse none (asOption (OrdererSection.ofDatum surplus)) (field "orderer")
    consortiums :=
      ← orElse none (asOption (asMap (ConsortiumSection.ofDatum surplus))) (field "consortiums")
    capabilities := ← orElse .nil (asMap asBool) (field "capabilities")
    policies := ← orElse .nil (policiesOfDatum surplus) (field "policies") }

def ProfileDocument.ofDatum (d : Datum) : Option ProfileDocument := do
  let field ← d.fields surplus ["profiles", "organizations"]
  return {
    profiles := ← orElse .nil (asMap (Profile.ofDatum surplus)) (field "profiles")
    organizations := ← orElse [] organizationsOfDatum (field "organizations") }

end

end ChannelConfig
