import ChannelConfig.Proofs.Channel.Sections

/-! What a tree depends on. `Profile.used` clears what no builder has a use for: nearly everything
of foreign organizations, and settings of other sections and other kinds of consensus.
`channelGroup_used`: the tree, or the error, stays the same, and so it does with any loader that
answers alike where it is asked. One lemma for each builder says so of its part. -/

set_option autoImplicit false

namespace ChannelConfig

/-! ## What is used -/

namespace Organization

/-- Of a foreign organization its name only, of another one what `keep` leaves. -/
def usedBy (keep : Organization → Organization) (o : Organization) : Organization :=
  if o.skipAsForeign then { name := o.name, skipAsForeign := true } else keep o

def usedByOrderer : Organization → Organization := usedBy fun o => { o with anchorPeers := [] }

def usedByApplication : Organization → Organization :=
  usedBy fun o => { o with ordererEndpoints := [] }

def usedByConsortium : Organization → Organization :=
  usedBy fun o => { o with anchorPeers := [], ordererEndpoints := [] }

end Organization

def OrdererSection.used (s : OrdererSection) : OrdererSection :=
  { s with
    kafkaBrokers := if s.ordererType = "kafka" then s.kafkaBrokers else []
    etcdRaft := if s.ordererType = "etcdraft" then s.etcdRaft else none
    organizations := s.organizations.map Organization.usedByOrderer }

def ApplicationSection.used (s : ApplicationSection) : ApplicationSection :=
  { s with organizations := s.organizations.map Organization.usedByApplication }

def ConsortiumSection.used (s : ConsortiumSection) : ConsortiumSection :=
  { s with organizations := s.organizations.map Organization.usedByConsortium }

/-- The profile without the settings that have no influence on its tree. -/
def Profile.used (p : Profile) : Profile :=
  { p with
    orderer := p.orderer.map OrdererSection.used
    application := p.application.map ApplicationSection.used
    consortiums := p.consortiums.map fun m => m.map fun _ s => s.used }

/-! ## Where a loader is asked -/

/-- The loaders find the same material, unless the organization is foreign. -/
def Organization.FoundAlike (loader loader' : MaterialLoader) (o : Organization) : Prop :=
  o.skipAsForeign = false →
    loader.loadMsp o.mspDir o.mspId o.mspType = loader'.loadMsp o.mspDir o.mspId o.mspType

/-- The loaders read the same certificates, if the section is one of a raft cluster. -/
def OrdererSection.ReadAlike (loader loader' : MaterialLoader) (s : OrdererSection) : Prop :=
  s.ordererType = "etcdraft" → ∀ raft, s.etcdRaft = some raft → ∀ c ∈ raft.consenters,
    loader.readPath c.clientTlsCert = loader'.readPath c.clientTlsCert ∧
      loader.readPath c.serverTlsCert = loader'.readPath c.serverTlsCert

/-- The loaders answer alike wherever the profile's tree needs an answer. -/
structure Profile.AnsweredAlike (loader loader' : MaterialLoader) (p : Profile) : Prop where
  organizations : ∀ o ∈ p.allOrganizations, o.FoundAlike loader loader'
  consenters : ∀ s, p.orderer = some s → s.ReadAlike loader loader'

variable {loader loader' : MaterialLoader}

/-! ## Organizations -/

namespace Organization

variable {o : Organization}

/-- Nothing is cleared that the group of a member is made of, with the values of a section. -/
structure Keeps (keep : Organization → Organization) (extras : Organization → Group → Group) :
    Prop where
  name : ∀ o, (keep o).name = o.name
  skipAsForeign : ∀ o, (keep o).skipAsForeign = o.skipAsForeign
  memberGroup : ∀ loader o, (keep o).memberGroup loader = o.memberGroup loader
  extras : ∀ o, extras (keep o) = extras o

theorem keeps_orderer : Keeps (fun o => { o with anchorPeers := [] }) fun o g =>
    g.withValueIf (o.ordererEndpoints ≠ []) (.endpoints { addresses := o.ordererEndpoints }) :=
  ⟨fun _ => rfl, fun _ => rfl, fun _ _ => rfl, fun _ => rfl⟩

theorem keeps_application : Keeps (fun o => { o with ordererEndpoints := [] }) fun o g =>
    g.withValueIf (o.anchorPeers ≠ []) (.anchorPeers { anchorPeers := o.anchorPeers }) :=
  ⟨fun _ => rfl, fun _ => rfl, fun _ _ => rfl, fun _ => rfl⟩

theorem keeps_consortium :
    Keeps (fun o => { o with anchorPeers := [], ordererEndpoints := [] }) fun _ => id :=
  ⟨fun _ => rfl, fun _ => rfl, fun _ _ => rfl, fun _ => rfl⟩

section

variable {keep : Organization → Organization} {extras : Organization → Group → Group}

theorem Keeps.name_usedBy (h : Keeps keep extras) (o : Organization) :
    (o.usedBy keep).name = o.name := by
  rw [usedBy]
  split
  · rfl
  · exact h.name o

theorem Keeps.groupWith_usedBy (h : Keeps keep extras) (hfound : o.FoundAlike loader loader') :
    (o.usedBy keep).groupWith (extras (o.usedBy keep)) loader' = o.groupWith (extras o) loader := by
  cases hforeign : o.skipAsForeign with
  | true =>
    rw [usedBy, if_pos hforeign, groupWith, groupWith, if_pos rfl, if_pos hforeign]
  | false =>
    have hkept : (keep o).skipAsForeign = false := (h.skipAsForeign o).trans hforeign
    have hmember : o.memberGroup loader' = o.memberGroup loader := by
      rw [Organization.memberGroup, Organization.memberGroup, hfound hforeign]
    rw [usedBy, if_neg (by simp [hforeign]), groupWith, groupWith, if_neg (by simp [hkept]),
      if_neg (by simp [hforeign]), h.memberGroup, h.extras, hmember]

/-- One organization after the other leaves the same group, or the same error. -/
theorem Keeps.withOrganizations_usedBy (h : Keeps keep extras) {place : String → Place}
    {os : List Organization} (hfound : ∀ o ∈ os, o.FoundAlike loader loader') (g : Group) :
    g.withOrganizations place (fun o => o.groupWith (extras o) loader') (os.map (usedBy keep)) =
      g.withOrganizations place (fun o => o.groupWith (extras o) loader) os := by
  induction os generalizing g with
  | nil => rfl
  | cons o os ih =>
    obtain ⟨hfirst, hrest⟩ := List.forall_mem_cons.1 hfound
    rw [List.map_cons, Group.withOrganizations, Group.withOrganizations, h.groupWith_usedBy hfirst,
      h.name_usedBy]
    exact bind_congr fun child => ih hrest _

end

end Organization

/-! ## Sections -/

theorem ConsenterDef.load_congr {c : ConsenterDef}
    (hclient : loader.readPath c.clientTlsCert = loader'.readPath c.clientTlsCert)
    (hserver : loader.readPath c.serverTlsCert = loader'.readPath c.serverTlsCert) :
    c.load loader' = c.load loader := by
  simp only [load, hclient, hserver]

namespace OrdererSection

variable {s : OrdererSection}

theorem consensusMetadata_used (h : s.ReadAlike loader loader') :
    s.used.consensusMetadata loader' = s.consensusMetadata loader := by
  by_cases hraft : s.ordererType = raftType
  · have hused : s.used.etcdRaft = s.etcdRaft := if_pos hraft
    rw [consensusMetadata, consensusMetadata, hused]
    cases hsome : s.etcdRaft with
    | none => rfl
    | some raft =>
      have hconsenters :
          raft.consenters.mapM (·.load loader') = raft.consenters.mapM (·.load loader) :=
        mapM_congr fun c hc => ConsenterDef.load_congr (h hraft raft hsome c hc).1
          (h hraft raft hsome c hc).2
      have hmetadata : raft.metadata loader' = raft.metadata loader := by
        rw [RaftSection.metadata, RaftSection.metadata, hconsenters]
      simp only [hmetadata]
      rfl
  · have hused : s.used.ordererType ≠ raftType := hraft
    rw [consensusMetadata, consensusMetadata, if_neg hraft, if_neg hused]
    rfl

theorem group_used (horganizations : ∀ o ∈ s.organizations, o.FoundAlike loader loader')
    (hconsenters : s.ReadAlike loader loader') : s.used.group loader' = s.group loader := by
  have hmembers : ∀ g : Group, g.withOrganizations .ordererOrganization (·.ordererGroup loader')
      s.used.organizations =
        g.withOrganizations .ordererOrganization (·.ordererGroup loader) s.organizations :=
    Organization.keeps_orderer.withOrganizations_usedBy horganizations
  have hbrokers : ∀ g : Group, g.withValueIf (s.used.ordererType = kafkaType)
      (.kafkaBrokers { brokers := s.used.kafkaBrokers }) =
        g.withValueIf (s.ordererType = kafkaType) (.kafkaBrokers { brokers := s.kafkaBrokers }) := by
    intro g
    by_cases hkafka : s.ordererType = kafkaType
    · have hused : s.used.kafkaBrokers = s.kafkaBrokers := if_pos hkafka
      rw [hused]
      rfl
    · have hused : s.used.ordererType ≠ kafkaType := hkafka
      rw [Group.withValueIf, Group.withValueIf, if_neg hkafka, if_neg hused]
  rw [group, group, consensusMetadata_used hconsenters]
  simp only [hmembers, hbrokers]
  rfl

end OrdererSection

theorem ApplicationSection.group_used {s : ApplicationSection}
    (h : ∀ o ∈ s.organizations, o.FoundAlike loader loader') :
    s.used.group loader' = s.group loader := by
  have hmembers : ∀ g : Group, g.withOrganizations .applicationOrganization
      (·.applicationGroup loader') s.used.organizations =
        g.withOrganizations .applicationOrganization (·.applicationGroup loader) s.organizations :=
    Organization.keeps_application.withOrganizations_usedBy h
  rw [group, group]
  simp only [hmembers]
  rfl

theorem ConsortiumSection.group_used {s : ConsortiumSection}
    (h : ∀ o ∈ s.organizations, o.FoundAlike loader loader') :
    s.used.group loader' = s.group loader := by
  have hmembers : ∀ g : Group, g.withOrganizations .consortiumOrganization
      (·.consortiumGroup loader') s.used.organizations =
        g.withOrganizations .consortiumOrganization (·.consortiumGroup loader) s.organizations :=
    Organization.keeps_consortium.withOrganizations_usedBy h
  rw [group, group, hmembers]

theorem Group.withConsortiums_used {lo : Option String} (cs : SortedFrom ConsortiumSection lo)
    (h : ∀ s ∈ cs.values, ∀ o ∈ s.organizations, o.FoundAlike loader loader') (g : Group) :
    g.withConsortiums loader' (cs.map fun _ s => s.used).toList =
      g.withConsortiums loader cs.toList := by
  induction cs generalizing g with
  | nil => rfl
  | cons name above s rest ih =>
    obtain ⟨hfirst, hrest⟩ := List.forall_mem_cons.1 h
    rw [SortedFrom.map, SortedFrom.toList, SortedFrom.toList, withConsortiums, withConsortiums,
      ConsortiumSection.group_used hfirst]
    exact bind_congr fun child => ih hrest _

theorem consortiumsGroupOf_used {cs : NameMap ConsortiumSection}
    (h : ∀ s ∈ cs.values, ∀ o ∈ s.organizations, o.FoundAlike loader loader') :
    consortiumsGroupOf loader' (cs.map fun _ s => s.used) = consortiumsGroupOf loader cs :=
  Group.withConsortiums_used cs h _

/-! ## The root -/

theorem Group.withSection_map {S : Type} {name : String} {build build' : S → Result Group}
    {used : S → S} {section? : Option S}
    (h : ∀ s, section? = some s → build' (used s) = build s) (g : Group) :
    g.withSection name build' (section?.map used) = g.withSection name build section? := by
  cases section? with
  | none => rfl
  | some s => rw [Option.map_some, withSection, withSection, h s rfl]

namespace Profile

variable {p q : Profile}

/-- The ordering service's addresses are of use to the root, and so they are kept. -/
theorem ordererAddresses_used : p.used.ordererAddresses = p.ordererAddresses := by
  rw [ordererAddresses, ordererAddresses, used, Option.map_map]
  rfl

theorem withRootValues_used (g : Group) : p.used.withRootValues g = p.withRootValues g := by
  rw [withRootValues, withRootValues, ordererAddresses_used]
  rfl

theorem AnsweredAlike.orderer (h : p.AnsweredAlike loader loader') (s : OrdererSection)
    (hs : p.orderer = some s) : s.used.group loader' = s.group loader := by
  refine OrdererSection.group_used (fun o ho => h.organizations o ?_) (h.consenters s hs)
  rw [allOrganizations, hs]
  exact List.mem_append_left _ (List.mem_append_left _ ho)

theorem AnsweredAlike.application (h : p.AnsweredAlike loader loader') (s : ApplicationSection)
    (hs : p.application = some s) : s.used.group loader' = s.group loader := by
  refine ApplicationSection.group_used fun o ho => h.organizations o ?_
  rw [allOrganizations, hs]
  exact List.mem_append_left _ (List.mem_append_right _ ho)

theorem AnsweredAlike.consortiums (h : p.AnsweredAlike loader loader')
    (cs : NameMap ConsortiumSection) (hcs : p.consortiums = some cs) :
    consortiumsGroupOf loader' (cs.map fun _ s => s.used) = consortiumsGroupOf loader cs := by
  refine consortiumsGroupOf_used fun s hs o ho => h.organizations o ?_
  rw [allOrganizations, hcs]
  exact List.mem_append_right _ (List.mem_flatMap.2 ⟨s, hs, ho⟩)

/-- The tree, or the error, is that of what is used, and only the answers to that count. -/
theorem channelGroup_used (h : p.AnsweredAlike loader loader') :
    p.used.channelGroup loader' = p.channelGroup loader := by
  rw [channelGroup, channelGroup]
  simp only [withRootValues_used]
  refine bind_congr fun root => ?_
  rw [used, Group.withSection_map h.orderer]
  refine bind_congr fun g => ?_
  rw [Group.withSection_map h.application]
  exact bind_congr fun g => Group.withSection_map h.consortiums g

theorem AnsweredAlike.refl (loader : MaterialLoader) (p : Profile) :
    p.AnsweredAlike loader loader :=
  ⟨fun _ _ _ => rfl, fun _ _ _ _ _ _ _ => ⟨rfl, rfl⟩⟩

theorem channelGroup_congr (h : p.AnsweredAlike loader loader') :
    p.channelGroup loader = p.channelGroup loader' :=
  (channelGroup_used h).symm.trans (channelGroup_used (.refl loader' p))

/-- Profiles that differ only in settings without influence, and loaders that answer alike about the
rest, give the same tree or the same error. -/
theorem channelGroup_ignores_unused (hused : p.used = q.used)
    (halike : p.AnsweredAlike loader loader') :
    p.channelGroup loader = q.channelGroup loader' := by
  rw [← channelGroup_used halike, hused, channelGroup_used (.refl loader' q)]

/-- The same channel, with settings in it that are of no use. -/
def fullUnused : Profile :=
  { full with
    orderer := full.orderer.map fun s =>
      { s with
        kafkaBrokers := ["kafka0:9092"]
        organizations := s.organizations.map fun o =>
          { o with anchorPeers := [{ host := "peer0.orderer.example.com", port := 7051 }] } }
    application := full.application.map fun s =>
      { s with
        organizations := s.organizations.map fun o =>
          if o.skipAsForeign then { o with mspId := "ForeignMSP", mspType := "idemix" }
          else { o with ordererEndpoints := ["orderer.org1.example.com:7050"] } }
    consortiums := full.consortiums.map fun m => m.map fun _ s =>
      { s with
        organizations := s.organizations.map fun o =>
          { o with ordererEndpoints := ["orderer.org1.example.com:7050"] } } }

/-- The same material, with more of it that no member of the channel has. -/
def foreignStore : MaterialStore :=
  { MaterialStore.full with
    organizations := MaterialStore.full.organizations.insert "ForeignMSP" { rootCerts := [[7]] } }

theorem channelGroup_ignores_unused_full :
    full.used = fullUnused.used ∧
    full.AnsweredAlike MaterialStore.full.loader foreignStore.loader ∧
    full.channelGroup MaterialStore.full.loader =
      fullUnused.channelGroup foreignStore.loader := by
  have hused : full.used = fullUnused.used := by decide +kernel
  have halike : full.AnsweredAlike MaterialStore.full.loader foreignStore.loader := by
    have hothers : ∀ o ∈ full.allOrganizations, "ForeignMSP" ≠ o.mspId := by decide +kernel
    refine ⟨fun o ho _ => ?_, fun s hs => ?_⟩
    · simp only [MaterialStore.loader, foreignStore, SortedFrom.find?_insert,
        if_neg (hothers o ho)]
    · cases hs
      exact fun _ _ _ _ _ => ⟨rfl, rfl⟩
  exact ⟨hused, halike, channelGroup_ignores_unused hused halike⟩

end Profile

end ChannelConfig
