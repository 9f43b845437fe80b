import ChannelConfig.Proofs.Channel.Sections
import ChannelConfig.Proofs.Msp.Material
import ChannelConfig.Proofs.Value.Standard
import Mathlib.Data.List.Forall2

/-! What a profile says stands in the values of its tree. `Profile.ReadsBack` lists, group by group,
the values that are there and what reading them gives; `Profile.channelGroup_reads_back` says so of
every tree that is built. -/

set_option autoImplicit false

namespace ChannelConfig

open Wire

/-! ## What is said of a group -/

/-- The group has these values and no others, and each reads back under its own name. The bound is
that of a length on the wire, which no vector of bytes reaches. -/
structure Group.Holds (g : Group) (vs : List StandardValue) : Prop where
  keys : ∀ key, g.values.contains key = true ↔ ∃ v ∈ vs, v.key = key
  reads : ∀ v ∈ vs, ∃ leaf, g.values.find? v.key = some leaf ∧
    (leaf.content.length < UInt64.size → StandardValue.decode v.key leaf.content = .ok v)

/-- The capabilities are those that the profile enables. -/
def Capabilities.Enabled (c : Capabilities) (flags : NameMap Bool) : Prop :=
  ∀ name, c.capabilities.contains name = true ↔ flags.find? name = some true

def Acls.Guards (a : Acls) (acls : NameMap String) : Prop :=
  ∀ resource, a.acls.find? resource = (acls.find? resource).map fun policyRef => { policyRef }

/-- A foreign organization has no value. Any other shows the material that the loader found for it,
and has the values `own` of the section besides. -/
def Organization.ReadsBack (loader : MaterialLoader) (o : Organization) (own : List StandardValue)
    (g : Group) : Prop :=
  if o.skipAsForeign then g.Holds []
  else ∃ m msp, loader.loadMsp o.mspDir o.mspId o.mspType = .ok m ∧
    msp.Carries o.mspId m ∧ g.Holds (.msp msp :: own)

/-! ### The orderer -/

structure ConsenterDef.ReadsAs (loader : MaterialLoader) (d : ConsenterDef) (c : Consenter) :
    Prop where
  host : c.host = d.host
  port : c.port = d.port
  clientTlsCert : loader.readPath d.clientTlsCert = .ok c.clientTlsCert
  serverTlsCert : loader.readPath d.serverTlsCert = .ok c.serverTlsCert

structure RaftSection.ReadsAs (loader : MaterialLoader) (s : RaftSection) (m : RaftMetadata) :
    Prop where
  consenters : List.Forall₂ (ConsenterDef.ReadsAs loader) s.consenters m.consenters
  options : m.options = some s.options

namespace OrdererSection

/-- Only a raft cluster has metadata, and they describe it. -/
def MetadataReads (loader : MaterialLoader) (s : OrdererSection) (metadata : Bytes) : Prop :=
  if s.ordererType = "etcdraft" then
    ∃ raft m, s.etcdRaft = some raft ∧ raft.ReadsAs loader m ∧
      (metadata.length < UInt64.size → decode metadata = .ok m)
  else metadata = []

structure ReadsBack (loader : MaterialLoader) (s : OrdererSection) (g : Group) : Prop where
  values : ∃ enabled metadata, Capabilities.Enabled enabled s.capabilities ∧
    s.MetadataReads loader metadata ∧ g.Holds (
      [.batchSize s.batchSize, .batchTimeout { timeout := s.batchTimeout },
        .channelRestrictions { maxCount := s.maxChannels }] ++
      valueIf (!s.capabilities.isEmpty) (.capabilities enabled) ++
      valueIf (s.ordererType = "kafka") (.kafkaBrokers { brokers := s.kafkaBrokers }) ++
      [.consensusType { type := s.ordererType, metadata, state := 0 }])
  organizations : g.Lists s.organizations fun o child => o.ReadsBack loader
    (valueIf (o.ordererEndpoints ≠ []) (.endpoints { addresses := o.ordererEndpoints })) child

end OrdererSection

/-! ### Application and consortiums -/

structure ApplicationSection.ReadsBack (loader : MaterialLoader) (s : ApplicationSection)
    (g : Group) : Prop where
  values : ∃ acls enabled, Acls.Guards acls s.acls ∧ Capabilities.Enabled enabled s.capabilities ∧
    g.Holds (valueIf (!s.acls.isEmpty) (.acls acls) ++
      valueIf (!s.capabilities.isEmpty) (.capabilities enabled))
  organizations : g.Lists s.organizations fun o child => o.ReadsBack loader
    (valueIf (o.anchorPeers ≠ []) (.anchorPeers { anchorPeers := o.anchorPeers })) child

/-- Any admin of a member may create a channel. -/
structure ConsortiumSection.ReadsBack (loader : MaterialLoader) (s : ConsortiumSection)
    (g : Group) : Prop where
  values : ∃ policy, AccessPolicy.ofMessage policy = .ok (.implicitMeta .any "Admins") ∧
    g.Holds [.channelCreationPolicy policy]
  organizations : g.Lists s.organizations fun o child => o.ReadsBack loader [] child

structure Group.ConsortiumsReadBack (loader : MaterialLoader) (cs : NameMap ConsortiumSection)
    (g : Group) : Prop where
  values : g.Holds []
  consortiums : ∀ name s, cs.find? name = some s →
    ∃ child, g.groups.find? name = some child ∧ s.ReadsBack loader child

/-! ### The root -/

structure Profile.ReadsBack (loader : MaterialLoader) (p : Profile) (g : Group) : Prop where
  values : ∃ enabled, Capabilities.Enabled enabled p.capabilities ∧ g.Holds (
    [.hashingAlgorithm { name := "SHA256" }, .blockDataHashingStructure { width := 4294967295 }] ++
    (p.orderer.elim [] fun s =>
      valueIf (s.addresses ≠ []) (.ordererAddresses { addresses := s.addresses })) ++
    (p.consortium.elim [] fun name => valueIf (name ≠ "") (.consortium { name })) ++
    valueIf (!p.capabilities.isEmpty) (.capabilities enabled))
  orderer : g.HasSection "Orderer" p.orderer (OrdererSection.ReadsBack loader)
  application : g.HasSection "Application" p.application (ApplicationSection.ReadsBack loader)
  consortiums : g.HasSection "Consortiums" p.consortiums (Group.ConsortiumsReadBack loader)

/-! ## Values -/

/-- The names of the values are among these, in this order. -/
def KeysAmong (vs : List StandardValue) (keys : List String) : Prop :=
  (vs.map StandardValue.key).Sublist keys

theorem KeysAmong.append {vs ws : List StandardValue} {keys keys' : List String}
    (h : KeysAmong vs keys) (h' : KeysAmong ws keys') : KeysAmong (vs ++ ws) (keys ++ keys') := by
  rw [KeysAmong, List.map_append]
  exact List.Sublist.append h h'

theorem keysAmong_self (vs : List StandardValue) : KeysAmong vs (vs.map StandardValue.key) :=
  List.Sublist.refl _

theorem keysAmong_valueIf (p : Prop) [Decidable p] (v : StandardValue) :
    KeysAmong (valueIf p v) [v.key] := by
  rw [valueIf]
  split
  · exact keysAmong_self [v]
  · exact List.nil_sublist _

theorem find?_of_nodup_keys {vs : List StandardValue} (h : (vs.map StandardValue.key).Nodup)
    {v : StandardValue} (hv : v ∈ vs) : vs.find? (fun w => w.key = v.key) = some v := by
  induction vs with
  | nil => cases hv
  | cons w vs ih =>
    rw [List.map_cons, List.nodup_cons] at h
    rcases List.mem_cons.1 hv with rfl | hv
    · simp
    · have hne : w.key ≠ v.key := fun heq => h.1 (heq ▸ List.mem_map_of_mem hv)
      rw [List.find?_cons_of_neg (by simpa using hne), ih h.2 hv]

variable {loader : MaterialLoader} {g : Group}

/-- Under different names no value takes the place of another. -/
theorem Group.Made.holds {governor : String} {policyNames keys : List String}
    {vs : List StandardValue} (h : g.Made governor policyNames vs) (hvs : KeysAmong vs keys)
    (hkeys : keys.Nodup) : g.Holds vs := by
  refine ⟨fun key => ?_, fun v hv => ⟨v.leaf, ?_, v.decode_encode⟩⟩
  · rw [SortedFrom.contains, h.values, Option.isSome_map, List.find?_isSome]
    simp
  · have hreverse : (vs.reverse.map StandardValue.key).Nodup :=
      ((List.reverse_perm vs).map StandardValue.key).nodup_iff.2 (hvs.nodup hkeys)
    rw [h.values, find?_of_nodup_keys hreverse (List.mem_reverse.2 hv)]
    rfl

theorem enabled_filterMap (flags : NameMap Bool) : Capabilities.Enabled
    ⟨flags.filterMap fun _ enabled => if enabled then some {} else none⟩ flags := by
  intro name
  rw [SortedFrom.contains, SortedFrom.find?_filterMap]
  cases flags.find? name with
  | none => simp
  | some enabled => cases enabled <;> simp

/-! ## Organizations -/

theorem Organization.keysAmong_ordererValues (o : Organization) :
    KeysAmong o.ordererValues ["Endpoints"] :=
  keysAmong_valueIf (o.ordererEndpoints ≠ []) (.endpoints { addresses := o.ordererEndpoints })

theorem Organization.keysAmong_applicationValues (o : Organization) :
    KeysAmong o.applicationValues ["AnchorPeers"] :=
  keysAmong_valueIf (o.anchorPeers ≠ []) (.anchorPeers { anchorPeers := o.anchorPeers })

theorem Organization.Makes.readsBack {o : Organization} {own : List StandardValue}
    {keys : List String} (h : o.Makes loader own g) (hown : KeysAmong own keys)
    (hkeys : ("MSP" :: keys).Nodup) : o.ReadsBack loader own g := by
  rw [Organization.ReadsBack]
  cases h with
  | foreign hforeign made =>
    rw [if_pos hforeign]
    exact made.holds (keysAmong_self []) List.nodup_nil
  | member m msp hmember hload hmsp _ made =>
    rw [if_neg (by simp [hmember])]
    have hmade := made.holds ((keysAmong_self [.msp msp]).append hown) hkeys
    exact ⟨m, msp, hload, carries_of_verifyingMsp hmsp, hmade⟩

/-! ## The orderer -/

theorem ConsenterDef.readsAs_of_load {d : ConsenterDef} {c : Consenter}
    (h : d.load loader = .ok c) : d.ReadsAs loader c := by
  obtain ⟨client, hclient, h⟩ := exists_of_bind_eq_ok h
  obtain ⟨server, hserver, h⟩ := exists_of_bind_eq_ok h
  cases h
  exact ⟨rfl, rfl, eq_ok_of_mapError hclient, eq_ok_of_mapError hserver⟩

theorem RaftSection.readsAs_of_metadata {s : RaftSection} {m : RaftMetadata}
    (h : s.metadata loader = .ok m) : s.ReadsAs loader m := by
  obtain ⟨consenters, hconsenters, h⟩ := exists_of_bind_eq_ok h
  obtain ⟨-, -, h⟩ := exists_of_bind_eq_ok h
  cases h
  exact ⟨(mapM_eq_ok_iff.1 hconsenters).imp fun _ _ hc => ConsenterDef.readsAs_of_load hc, rfl⟩

namespace OrdererSection

variable {s : OrdererSection}

theorem metadataReads_of_consensusMetadata {metadata : Bytes}
    (h : s.consensusMetadata loader = .ok metadata) : s.MetadataReads loader metadata := by
  rw [MetadataReads]
  rw [consensusMetadata] at h
  split at h
  · next hplain =>
    cases h
    rw [if_neg]
    intro htype
    rw [htype] at hplain
    exact absurd hplain (by decide)
  · split at h
    · next htype =>
      have htype : s.ordererType = "etcdraft" := htype
      rw [if_pos htype]
      split at h
      · next raft hraft =>
        obtain ⟨m, hm, rfl⟩ := exists_of_map_eq_ok h
        exact ⟨raft, m, hraft, RaftSection.readsAs_of_metadata hm,
          decode_encode_of_flat (by decide)⟩
      · cases h
    · cases h

theorem keysAmong_standardValues (s : OrdererSection) (metadata : Bytes) :
    KeysAmong (s.standardValues metadata) ["BatchSize", "BatchTimeout", "ChannelRestrictions",
      "Capabilities", "KafkaBrokers", "ConsensusType"] :=
  (((keysAmong_self [.batchSize s.batchSize, .batchTimeout { timeout := s.batchTimeout },
      .channelRestrictions { maxCount := s.maxChannels }]).append
    (keysAmong_valueIf (!s.capabilities.isEmpty) (enabledCapabilities s.capabilities))).append
    (keysAmong_valueIf (s.ordererType = kafkaType) (.kafkaBrokers { brokers := s.kafkaBrokers }))).append
    (keysAmong_self [.consensusType { type := s.ordererType, metadata }])

theorem readsBack_of_group (h : s.group loader = .ok g) : s.ReadsBack loader g := by
  obtain ⟨metadata, hmetadata, hsection⟩ := exists_of_group h
  have hholds := hsection.made.holds (s.keysAmong_standardValues metadata) (by decide)
  refine ⟨⟨_, metadata, enabled_filterMap s.capabilities,
    metadataReads_of_consensusMetadata hmetadata, hholds⟩,
    hsection.organizations.imp fun o child hchild => ?_⟩
  exact (Organization.makes_of_ordererGroup hchild).readsBack o.keysAmong_ordererValues (by decide)

end OrdererSection

/-! ## Application and consortiums -/

theorem ApplicationSection.keysAmong_standardValues (s : ApplicationSection) :
    KeysAmong s.standardValues ["ACLs", "Capabilities"] :=
  (keysAmong_valueIf (!s.acls.isEmpty)
      (.acls { acls := s.acls.map fun _ policyRef => { policyRef } })).append
    (keysAmong_valueIf (!s.capabilities.isEmpty) (enabledCapabilities s.capabilities))

theorem ApplicationSection.readsBack_of_group {s : ApplicationSection} (h : s.group loader = .ok g) :
    s.ReadsBack loader g := by
  have hsection := isSectionOf_of_group h
  have hholds := hsection.made.holds s.keysAmong_standardValues (by decide)
  refine ⟨⟨_, _, fun resource => s.acls.find?_map _ resource, enabled_filterMap s.capabilities,
    hholds⟩, hsection.organizations.imp fun o child hchild => ?_⟩
  exact (Organization.makes_of_applicationGroup hchild).readsBack o.keysAmong_applicationValues
    (by decide)

theorem ofMessage_channelCreationPolicy :
    AccessPolicy.ofMessage channelCreationPolicy.toMessage = .ok (.implicitMeta .any "Admins") := by
  have h : (AccessPolicy.ofMessage channelCreationPolicy.toMessage).toOption =
      some (.implicitMeta .any "Admins") := by
    decide +kernel
  exact eq_ok_of_toOption h

theorem ConsortiumSection.readsBack_of_group {s : ConsortiumSection} (h : s.group loader = .ok g) :
    s.ReadsBack loader g := by
  obtain ⟨hmade, hlists⟩ := made_of_group h
  have hholds := hmade.holds (keysAmong_self _) (by decide)
  refine ⟨⟨_, ofMessage_channelCreationPolicy, hholds⟩, hlists.imp fun o child hchild => ?_⟩
  exact (Organization.makes_of_consortiumGroup hchild).readsBack (keysAmong_self []) (by decide)

theorem Group.IsConsortiumsOf.readsBack {cs : NameMap ConsortiumSection}
    (h : g.IsConsortiumsOf loader cs) : g.ConsortiumsReadBack loader cs := by
  refine ⟨h.made.holds (keysAmong_self []) List.nodup_nil, fun name s hs => ?_⟩
  obtain ⟨child, hchild, hbuilt⟩ := h.built name s hs
  exact ⟨child, hchild, ConsortiumSection.readsBack_of_group hbuilt⟩

/-! ## Every tree -/

theorem Profile.standardValues_eq (p : Profile) : p.standardValues =
    [.hashingAlgorithm { name := "SHA256" }, .blockDataHashingStructure { width := 4294967295 }] ++
    (p.orderer.elim [] fun s =>
      valueIf (s.addresses ≠ []) (.ordererAddresses { addresses := s.addresses })) ++
    (p.consortium.elim [] fun name => valueIf (name ≠ "") (.consortium { name })) ++
    valueIf (!p.capabilities.isEmpty) (enabledCapabilities p.capabilities) := by
  have haddresses : valueIf (p.ordererAddresses ≠ [])
        (.ordererAddresses { addresses := p.ordererAddresses }) =
      p.orderer.elim [] fun s =>
        valueIf (s.addresses ≠ []) (.ordererAddresses { addresses := s.addresses }) := by
    rw [ordererAddresses]
    cases p.orderer <;> rfl
  have hconsortium : p.consortiumName?.toList.map (fun name => .consortium { name }) =
      p.consortium.elim [] fun name => valueIf (name ≠ "") (.consortium { name }) := by
    rw [consortiumName?]
    cases p.consortium with
    | none => rfl
    | some name =>
      by_cases hname : name = ""
      · simp [hname, valueIf]
      · simp [hname, valueIf]
  rw [standardValues, haddresses, hconsortium]
  rfl

theorem Profile.keysAmong_standardValues (p : Profile) : KeysAmong p.standardValues
    ["HashingAlgorithm", "BlockDataHashingStructure", "OrdererAddresses", "Consortium",
      "Capabilities"] := by
  have hconsortium : KeysAmong (p.consortiumName?.toList.map fun name => .consortium { name })
      ["Consortium"] := by
    cases p.consortiumName? with
    | none => exact List.nil_sublist _
    | some name => exact keysAmong_self [.consortium { name }]
  exact (((keysAmong_self [.hashingAlgorithm hashingAlgorithm,
      .blockDataHashingStructure blockDataHashing]).append
    (keysAmong_valueIf (p.ordererAddresses ≠ [])
      (.ordererAddresses { addresses := p.ordererAddresses }))).append hconsortium).append
    (keysAmong_valueIf (!p.capabilities.isEmpty) (enabledCapabilities p.capabilities))

/-- Whatever a profile says can be read back from the values of its tree, and the tree has no other
values. -/
theorem Profile.channelGroup_reads_back {p : Profile} (h : p.channelGroup loader = .ok g) :
    p.ReadsBack loader g := by
  have hroot := isRootOf_of_channelGroup h
  have hholds := hroot.made.holds p.keysAmong_standardValues (by decide)
  rw [standardValues_eq] at hholds
  refine ⟨⟨_, enabled_filterMap p.capabilities, hholds⟩, ?_, ?_, ?_⟩
  · exact hroot.orderer.imp fun s child hs => OrdererSection.readsBack_of_group hs
  · exact hroot.application.imp fun s child hs => ApplicationSection.readsBack_of_group hs
  · exact hroot.consortiums.imp fun cs child hcs =>
      (isConsortiumsOf_of_consortiumsGroupOf hcs).readsBack

theorem Profile.channelGroup_reads_back_full :
    ∃ g, Profile.full.channelGroup MaterialStore.full.loader = .ok g ∧
      Profile.full.ReadsBack MaterialStore.full.loader g := by
  obtain ⟨g, hg⟩ := exists_channelGroup_full
  exact ⟨g, hg, channelGroup_reads_back hg⟩

end ChannelConfig
