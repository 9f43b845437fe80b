import ChannelConfig.Proofs.Channel.Build

/-! What each builder makes: the policies and values of its group (`Group.Made`) and the groups of the
organizations below it (`Group.Lists`), from the group of one organization up to the root. -/

set_option autoImplicit false

namespace ChannelConfig

variable {loader : MaterialLoader} {g g' : Group}

/-! ## Child groups and values -/

namespace Group

@[simp] theorem groups_withValue (v : StandardValue) : (g.withValue v).groups = g.groups := rfl

@[simp] theorem groups_withValueIf (p : Prop) [Decidable p] (v : StandardValue) :
    (g.withValueIf p v).groups = g.groups := by
  rw [withValueIf]
  split <;> rfl

theorem groups_ofPolicies {policies : NameMap PolicyDef} {required : List String}
    (hadmins : adminsPolicy ∈ required) (h : ofPolicies policies required = .ok g) (name : String) :
    g.groups.find? name = none :=
  (isSection_ofPolicies hadmins h).isNew.2 name

theorem Made.withOrganizations {governor : String} {policyNames : List String}
    {vs : List StandardValue} {place : String → Place} {build : Organization → Result Group}
    {os : List Organization} (hg : g.Made governor policyNames vs)
    (h : g.withOrganizations place build os = .ok g') : g'.Made governor policyNames vs :=
  withOrganizations_ind (P := fun g => g.Made governor policyNames vs)
    (fun _ o child hg _ => hg.setGroup o.name child) hg h

end Group

/-! ## Organizations -/

namespace Organization

variable {o : Organization}

/-- A group of an organization: an empty one if the organization is foreign, and otherwise its
policies, its MSP and the values `own` of the section. -/
inductive Makes (loader : MaterialLoader) (o : Organization) (own : List StandardValue)
    (g : Group) : Prop where
  | foreign (hforeign : o.skipAsForeign = true) (made : g.Made adminsPolicy [] [])
  | member (m : Material) (msp : MspConfig) (hmember : o.skipAsForeign = false)
      (hload : loader.loadMsp o.mspDir o.mspId o.mspType = .ok m)
      (hmsp : verifyingMsp o.mspId m = .ok msp)
      (required : ∀ name ∈ standardPolicies, name ∈ o.policies.names)
      (made : g.Made adminsPolicy o.policies.names (.msp msp :: own))

theorem makes_of_groupWith {extras : Group → Group} {own : List StandardValue}
    (hextras : ∀ g vs, g.Made adminsPolicy o.policies.names vs →
      (extras g).Made adminsPolicy o.policies.names (vs ++ own))
    (h : o.groupWith extras loader = .ok g) : o.Makes loader own g := by
  rw [groupWith] at h
  split at h
  · next hforeign =>
    cases h
    exact .foreign hforeign (Group.made_governedBy adminsPolicy)
  · next hmember =>
    obtain ⟨member, hbuild, rfl⟩ := exists_of_map_eq_ok h
    rw [memberGroup] at hbuild
    split at hbuild
    · cases hbuild
    · split at hbuild
      · cases hbuild
      · next m hload =>
        obtain ⟨msp, hmsp, hbuild⟩ := exists_of_bind_eq_ok hbuild
        obtain ⟨root, hroot, hbuild⟩ := exists_of_bind_eq_ok hbuild
        cases hbuild
        obtain ⟨hmade, hrequired⟩ := Group.made_ofPolicies (eq_ok_of_within hroot)
        exact .member m msp (Bool.eq_false_iff.2 hmember) hload hmsp hrequired
          (hextras _ _ (hmade.withValue (.msp msp) rfl))

/-- The values that an organization has as one of the ordering service. -/
def ordererValues (o : Organization) : List StandardValue :=
  valueIf (o.ordererEndpoints ≠ []) (.endpoints { addresses := o.ordererEndpoints })

/-- The values that an organization has as one of the application. -/
def applicationValues (o : Organization) : List StandardValue :=
  valueIf (o.anchorPeers ≠ []) (.anchorPeers { anchorPeers := o.anchorPeers })

theorem makes_of_ordererGroup (h : o.ordererGroup loader = .ok g) :
    o.Makes loader o.ordererValues g :=
  makes_of_groupWith (fun _ _ hg => hg.withValueIf _ rfl) h

theorem makes_of_applicationGroup (h : o.applicationGroup loader = .ok g) :
    o.Makes loader o.applicationValues g :=
  makes_of_groupWith (fun _ _ hg => hg.withValueIf _ rfl) h

theorem makes_of_consortiumGroup (h : o.consortiumGroup loader = .ok g) : o.Makes loader [] g :=
  makes_of_groupWith (fun _ vs hg => by rwa [id, List.append_nil]) h

end Organization

/-! ## Sections -/

/-- The group of a section: all its policies, the required ones among them, its values and the
groups of its organizations. -/
structure Group.IsSectionOf (g : Group) (policies : NameMap PolicyDef) (required : List String)
    (vs : List StandardValue) (os : List Organization) (build : Organization → Result Group) :
    Prop where
  made : g.Made adminsPolicy policies.names vs
  required : ∀ name ∈ required, name ∈ policies.names
  organizations : g.Lists os fun o child => build o = .ok child

namespace OrdererSection

variable {s : OrdererSection}

def standardValues (s : OrdererSection) (metadata : Bytes) : List StandardValue :=
  [.batchSize s.batchSize, .batchTimeout { timeout := s.batchTimeout },
      .channelRestrictions { maxCount := s.maxChannels }] ++
    valueIf (!s.capabilities.isEmpty) (enabledCapabilities s.capabilities) ++
    valueIf (s.ordererType = kafkaType) (.kafkaBrokers { brokers := s.kafkaBrokers }) ++
    [.consensusType { type := s.ordererType, metadata }]

theorem exists_of_group (h : s.group loader = .ok g) : ∃ metadata,
    s.consensusMetadata loader = .ok metadata ∧
    g.IsSectionOf s.policies ordererPolicies (s.standardValues metadata) s.organizations
      (·.ordererGroup loader) := by
  obtain ⟨root, hroot, h⟩ := exists_of_bind_eq_ok h
  obtain ⟨-, -, h⟩ := exists_of_bind_eq_ok h
  obtain ⟨metadata, hmetadata, h⟩ := exists_of_bind_eq_ok h
  have hgroups := Group.groups_ofPolicies (by decide) (eq_ok_of_within hroot)
  obtain ⟨hmade, hrequired⟩ := Group.made_ofPolicies (eq_ok_of_within hroot)
  have hmade := (((hmade.withValue (.batchSize s.batchSize) rfl).withValue
    (.batchTimeout { timeout := s.batchTimeout }) rfl).withValue
    (.channelRestrictions { maxCount := s.maxChannels }) rfl).withValueIf
    (p := !s.capabilities.isEmpty) (enabledCapabilities s.capabilities) rfl
  have hmade := (hmade.withValueIf (p := s.ordererType = kafkaType)
    (.kafkaBrokers { brokers := s.kafkaBrokers }) rfl).withValue
    (.consensusType { type := s.ordererType, metadata }) rfl
  exact ⟨metadata, hmetadata, hmade.withOrganizations h, hrequired,
    Group.lists_withOrganizations (fun name => by simpa using hgroups name) h⟩

end OrdererSection

namespace ApplicationSection

variable {s : ApplicationSection}

def standardValues (s : ApplicationSection) : List StandardValue :=
  valueIf (!s.acls.isEmpty) (.acls { acls := s.acls.map fun _ policyRef => { policyRef } }) ++
    valueIf (!s.capabilities.isEmpty) (enabledCapabilities s.capabilities)

theorem isSectionOf_of_group (h : s.group loader = .ok g) :
    g.IsSectionOf s.policies standardPolicies s.standardValues s.organizations
      (·.applicationGroup loader) := by
  obtain ⟨root, hroot, h⟩ := exists_of_bind_eq_ok h
  have hgroups := Group.groups_ofPolicies (by decide) (eq_ok_of_within hroot)
  obtain ⟨hmade, hrequired⟩ := Group.made_ofPolicies (eq_ok_of_within hroot)
  have hmade := (hmade.withValueIf (p := !s.acls.isEmpty)
    (.acls { acls := s.acls.map fun _ policyRef => { policyRef } }) rfl).withValueIf
    (p := !s.capabilities.isEmpty) (enabledCapabilities s.capabilities) rfl
  exact ⟨hmade.withOrganizations h, hrequired,
    Group.lists_withOrganizations (fun name => by simpa using hgroups name) h⟩

end ApplicationSection

theorem ConsortiumSection.made_of_group {s : ConsortiumSection} (h : s.group loader = .ok g) :
    g.Made ordererAdmins [] [.channelCreationPolicy channelCreationPolicy.toMessage] ∧
      g.Lists s.organizations fun o child => o.consortiumGroup loader = .ok child := by
  obtain ⟨members, hmembers, h⟩ := exists_of_bind_eq_ok h
  cases h
  have hmade := (Group.made_governedBy ordererAdmins).withOrganizations hmembers
  have hlists := Group.lists_withOrganizations (fun _ => rfl) hmembers
  exact ⟨hmade.addTo (.channelCreationPolicy channelCreationPolicy.toMessage) rfl,
    hlists.names, hlists.last⟩

/-! ## Consortiums -/

namespace Group

theorem made_withConsortiums {governor : String} {policyNames : List String}
    {vs : List StandardValue} {es : List (String × ConsortiumSection)}
    (hg : g.Made governor policyNames vs) (h : g.withConsortiums loader es = .ok g') :
    g'.Made governor policyNames vs ∧ g'.policies = g.policies := by
  induction es generalizing g with
  | nil =>
    cases h
    exact ⟨hg, rfl⟩
  | cons e es ih =>
    obtain ⟨child, -, h⟩ := exists_of_bind_eq_ok h
    obtain ⟨hmade, hpolicies⟩ := ih (hg.setGroup e.1 child) h
    exact ⟨hmade, hpolicies⟩

/-- The names of a map are all different, so no consortium takes the place of another. -/
theorem find?_groups_withConsortiums {lo : Option String} (cs : SortedFrom ConsortiumSection lo)
    (h : g.withConsortiums loader cs.toList = .ok g') :
    (∀ name s, cs.find? name = some s →
      ∃ child, g'.groups.find? name = some child ∧ s.group loader = .ok child) ∧
    ∀ name, cs.find? name = none → g'.groups.find? name = g.groups.find? name := by
  induction cs generalizing g with
  | nil =>
    cases h
    exact ⟨fun name s hs => (nomatch hs), fun name _ => rfl⟩
  | cons first above s rest ih =>
    obtain ⟨child, hchild, h⟩ := exists_of_bind_eq_ok h
    obtain ⟨hbuilt, hothers⟩ := ih h
    refine ⟨fun name t ht => ?_, fun name hnone => ?_⟩
    · by_cases hname : first = name
      · subst hname
        rw [SortedFrom.find?_cons_self] at ht
        cases ht
        refine ⟨child, ?_, eq_ok_of_within hchild⟩
        rw [hothers first (SortedFrom.find?_eq_none_of_le rest (String.le_refl first)),
          find?_groups_setGroup, if_pos rfl]
      · rw [SortedFrom.find?_cons_of_ne hname] at ht
        exact hbuilt name t ht
    · have hname : first ≠ name := by
        rintro rfl
        rw [SortedFrom.find?_cons_self] at hnone
        cases hnone
      rw [SortedFrom.find?_cons_of_ne hname] at hnone
      rw [hothers name hnone, find?_groups_setGroup, if_neg hname]

end Group

/-- The group of all consortiums: one policy, no value and a child group for each of them. -/
structure Group.IsConsortiumsOf (loader : MaterialLoader) (cs : NameMap ConsortiumSection)
    (g : Group) : Prop where
  made : g.Made ordererAdmins [adminsPolicy] []
  admins : g.policies.find? adminsPolicy =
    some { content := some AccessPolicy.acceptAll.toMessage, modPolicy := ordererAdmins }
  names : ∀ name, g.groups.contains name = true ↔ cs.contains name = true
  built : ∀ name s, cs.find? name = some s →
    ∃ child, g.groups.find? name = some child ∧ s.group loader = .ok child

theorem isConsortiumsOf_of_consortiumsGroupOf {cs : NameMap ConsortiumSection}
    (h : consortiumsGroupOf loader cs = .ok g) : g.IsConsortiumsOf loader cs := by
  have hstart := (Group.made_governedBy ordererAdmins).setPolicy adminsPolicy .acceptAll
  obtain ⟨hmade, hpolicies⟩ := Group.made_withConsortiums hstart h
  obtain ⟨hbuilt, hothers⟩ := Group.find?_groups_withConsortiums cs h
  refine ⟨hmade, ?_, fun name => ?_, hbuilt⟩
  · rw [hpolicies]
    exact SortedFrom.find?_ofList_singleton ..
  · cases hname : cs.find? name with
    | none =>
      rw [SortedFrom.contains, SortedFrom.contains, hothers name hname, hname]
      rfl
    | some s =>
      obtain ⟨child, hchild, -⟩ := hbuilt name s hname
      rw [SortedFrom.contains, SortedFrom.contains, hchild, hname]
      rfl

/-! ## The root -/

/-- The child group of a section is there exactly if the section is, and then `P` holds of the two. -/
structure Group.HasSection {S : Type} (g : Group) (name : String) (s : Option S)
    (P : S → Group → Prop) : Prop where
  absent : s = none → g.groups.find? name = none
  present : ∀ t, s = some t → ∃ child, g.groups.find? name = some child ∧ P t child

namespace Group

variable {S : Type} {name : String} {s : Option S}

theorem HasSection.imp {P Q : S → Group → Prop} (h : g.HasSection name s P)
    (hPQ : ∀ t child, P t child → Q t child) : g.HasSection name s Q := by
  refine ⟨h.absent, fun t ht => ?_⟩
  obtain ⟨child, hchild, hP⟩ := h.present t ht
  exact ⟨child, hchild, hPQ t child hP⟩

theorem HasSection.of_find?_eq {P : S → Group → Prop} (h : g.HasSection name s P)
    (heq : g'.groups.find? name = g.groups.find? name) : g'.HasSection name s P := by
  refine ⟨fun hs => heq.trans (h.absent hs), fun t ht => ?_⟩
  rw [heq]
  exact h.present t ht

section

variable {build : S → Result Group} (h : g.withSection name build s = .ok g')

include h

theorem Made.withSection {governor : String} {policyNames : List String} {vs : List StandardValue}
    (hg : g.Made governor policyNames vs) : g'.Made governor policyNames vs := by
  obtain ⟨-, rfl⟩ | ⟨t, child, -, -, rfl⟩ := withSection_eq_ok h
  · exact hg
  · exact hg.setGroup name child

theorem find?_groups_withSection {key : String} (hkey : key ≠ name) :
    g'.groups.find? key = g.groups.find? key := by
  obtain ⟨-, rfl⟩ | ⟨t, child, -, -, rfl⟩ := withSection_eq_ok h
  · rfl
  · rw [find?_groups_setGroup, if_neg hkey.symm]

theorem hasSection_withSection (hg : g.groups.find? name = none) :
    g'.HasSection name s fun t child => build t = .ok child := by
  obtain ⟨rfl, rfl⟩ | ⟨t, child, rfl, hchild, rfl⟩ := withSection_eq_ok h
  · exact ⟨fun _ => hg, fun t ht => (nomatch ht)⟩
  · refine ⟨fun ht => (nomatch ht), fun t' ht' => ⟨child, ?_, ?_⟩⟩
    · rw [find?_groups_setGroup, if_pos rfl]
    · cases ht'
      exact hchild

end

end Group

namespace Profile

variable {p : Profile}

def standardValues (p : Profile) : List StandardValue :=
  [.hashingAlgorithm hashingAlgorithm, .blockDataHashingStructure blockDataHashing] ++
    valueIf (p.ordererAddresses ≠ []) (.ordererAddresses { addresses := p.ordererAddresses }) ++
    p.consortiumName?.toList.map (fun name => .consortium { name }) ++
    valueIf (!p.capabilities.isEmpty) (enabledCapabilities p.capabilities)

@[simp] theorem groups_withRootValues : (p.withRootValues g).groups = g.groups := by
  rw [withRootValues, Group.groups_withValueIf]
  split <;> split <;> rfl

theorem made_withRootValues (hg : g.Made adminsPolicy p.policies.names []) :
    (p.withRootValues g).Made adminsPolicy p.policies.names p.standardValues := by
  have hbase := (hg.withValue (.hashingAlgorithm hashingAlgorithm) rfl).withValue
    (.blockDataHashingStructure blockDataHashing) rfl
  rw [withRootValues]
  refine Group.Made.withValueIf ?_ _ rfl
  have haddresses := hbase.addToUnless (p := p.ordererAddresses = [])
    (.ordererAddresses { addresses := p.ordererAddresses }) (rfl : _ = ordererAdmins)
  cases p.consortiumName? with
  | none =>
    show Group.Made _ _ _ (_ ++ [])
    rw [List.append_nil]
    exact haddresses
  | some name => exact haddresses.withValue (.consortium { name }) rfl

/-- What the root of a channel is made of, and which sections stand below it. -/
structure IsRootOf (loader : MaterialLoader) (p : Profile) (g : Group) : Prop where
  made : g.Made adminsPolicy p.policies.names p.standardValues
  required : ∀ name ∈ standardPolicies, name ∈ p.policies.names
  orderer : g.HasSection ordererGroup p.orderer fun s child => s.group loader = .ok child
  application : g.HasSection applicationGroup p.application fun s child => s.group loader = .ok child
  consortiums : g.HasSection consortiumsGroup p.consortiums fun cs child =>
    consortiumsGroupOf loader cs = .ok child
  others : ∀ name, name ≠ ordererGroup → name ≠ applicationGroup → name ≠ consortiumsGroup →
    g.groups.find? name = none

theorem isRootOf_of_channelGroup (h : p.channelGroup loader = .ok g) : p.IsRootOf loader g := by
  obtain ⟨root, hroot, h⟩ := exists_of_bind_eq_ok h
  obtain ⟨withOrderer, horderer, h⟩ := exists_of_bind_eq_ok h
  obtain ⟨withApplication, happlication, h⟩ := exists_of_bind_eq_ok h
  have hgroups : ∀ name, (p.withRootValues root).groups.find? name = none := by
    simpa using Group.groups_ofPolicies (by decide) (eq_ok_of_within hroot)
  obtain ⟨hmade, hrequired⟩ := Group.made_ofPolicies (eq_ok_of_within hroot)
  have hmade := ((made_withRootValues hmade).withSection horderer).withSection happlication
  -- each section stands under a name of its own, so it is still there at the end
  refine ⟨hmade.withSection h, hrequired, ?_, ?_, ?_, fun name hne hne' hne'' => ?_⟩
  · refine (Group.hasSection_withSection horderer (hgroups _)).of_find?_eq ?_
    rw [Group.find?_groups_withSection h (by decide),
      Group.find?_groups_withSection happlication (by decide)]
  · refine (Group.hasSection_withSection happlication ?_).of_find?_eq
      (Group.find?_groups_withSection h (by decide))
    rw [Group.find?_groups_withSection horderer (by decide), hgroups]
  · refine Group.hasSection_withSection h ?_
    rw [Group.find?_groups_withSection happlication (by decide),
      Group.find?_groups_withSection horderer (by decide), hgroups]
  · rw [Group.find?_groups_withSection h hne'', Group.find?_groups_withSection happlication hne',
      Group.find?_groups_withSection horderer hne, hgroups]

end Profile

/-! ## A channel with everything -/

/-- A profile with all sections. The application lists one organization twice, first as foreign. -/
def Profile.full : Profile where
  consortium := some "SampleConsortium"
  orderer := some {
    ordererType := "etcdraft"
    addresses := ["orderer.example.com:7050"]
    etcdRaft := some { consenters := [⟨"orderer.example.com", 7050, ⟨"client.pem"⟩, ⟨"server.pem"⟩⟩] }
    organizations := [{
      name := "OrdererOrg", mspId := "OrdererMSP", policies := PolicyDef.standard
      ordererEndpoints := ["orderer.example.com:7050"] }]
    capabilities := .ofList [("V2_0", true), ("V3_0", false)]
    policies := PolicyDef.standard.insert blockValidationPolicy (.signature "OR('OrdererMSP.member')") }
  application := some {
    organizations := [
      { name := "Org1", skipAsForeign := true },
      { name := "Org1", mspId := "Org1MSP", policies := PolicyDef.standard
        anchorPeers := [{ host := "peer0.org1.example.com", port := 7051 }] },
      { name := "Org2", skipAsForeign := true }]
    acls := .ofList [("qscc/GetChainInfo", "/Channel/Application/Readers")]
    policies := PolicyDef.standard }
  consortiums := some (.ofList [("SampleConsortium", {
    organizations := [{ name := "Org1", mspId := "Org1MSP", policies := PolicyDef.standard }] })])
  policies := PolicyDef.standard

/-- The material of the organizations in it that are not foreign. -/
def MaterialStore.full : MaterialStore where
  organizations := .ofList [
    ("OrdererMSP", { rootCerts := [[1, 2]] }),
    ("Org1MSP", { rootCerts := [[3]], nodeOus := some { enable := true, peer := some ⟨[3], "peer"⟩ } })]
  files := [(⟨"client.pem"⟩, [4]), (⟨"server.pem"⟩, [5, 6])]

theorem Profile.exists_channelGroup_full :
    ∃ g, Profile.full.channelGroup MaterialStore.full.loader = .ok g := by
  have h : (Profile.full.channelGroup MaterialStore.full.loader).toOption.isSome = true := by
    decide +kernel
  obtain ⟨g, hg⟩ := Option.isSome_iff_exists.1 h
  exact ⟨g, eq_ok_of_toOption hg⟩

end ChannelConfig
