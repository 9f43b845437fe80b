import ChannelConfig.Proofs.Channel.Contents
import ChannelConfig.Proofs.Tree.Depth

/-! The trees that profiles describe. `IsNew depth` holds of a tree that has no version yet and no
groups further down than so many levels, `IsSection depth` of one that is governed by the admins and
has their policy besides. Every way to put an entry into a group keeps both, so the groups of the
sections have them (`isSection_group`), and so has the root (`Profile.isSection_of_channelGroup`). -/

set_option autoImplicit false

namespace ChannelConfig

/-! ## Trees without versions -/

namespace Group

/-- A group and its leaves before any update. -/
structure NewHere (g : Group) : Prop where
  version : g.version = 0
  values : ∀ name v, g.values.find? name = some v → v.version = 0
  policies : ∀ name p, g.policies.find? name = some p → p.version = 0

/-- A tree before any update, with groups on at most so many levels below the root. -/
def IsNew : (depth : Nat) → Group → Prop
  | 0, g => g.NewHere ∧ ∀ name, g.groups.find? name = none
  | depth + 1, g =>
    g.NewHere ∧ ∀ name child, g.groups.find? name = some child → child.IsNew depth

variable {g g' child : Group} {depth : Nat}

theorem IsNew.here (h : g.IsNew depth) : g.NewHere := by
  cases depth <;> exact h.1

theorem IsNew.exists_of_child {name : String} (h : g.IsNew depth)
    (hc : g.groups.find? name = some child) : ∃ above, depth = above + 1 ∧ child.IsNew above := by
  cases depth with
  | zero =>
    rw [h.2 name] at hc
    cases hc
  | succ above => exact ⟨above, rfl, h.2 name child hc⟩

/-- Leaves may be exchanged for other new ones. -/
theorem IsNew.of_groups_eq (h : g.IsNew depth) (hhere : g'.NewHere)
    (hgroups : g'.groups = g.groups) : g'.IsNew depth := by
  cases depth with
  | zero => exact ⟨hhere, hgroups ▸ h.2⟩
  | succ depth => exact ⟨hhere, hgroups ▸ h.2⟩

theorem IsNew.succ (h : g.IsNew depth) : g.IsNew (depth + 1) := by
  induction depth generalizing g with
  | zero => exact ⟨h.1, fun name child hc => by simp [h.2 name] at hc⟩
  | succ depth ih => exact ⟨h.1, fun name child hc => ih (h.2 name child hc)⟩

theorem isNew_governedBy (modPolicy : String) : (governedBy modPolicy).IsNew 0 := by
  refine ⟨⟨rfl, fun name v hv => ?_, fun name p hp => ?_⟩, fun _ => rfl⟩
  · cases hv
  · cases hp

theorem IsNew.setValue (h : g.IsNew depth) (name : String) (content : Bytes) (modPolicy : String) :
    (g.setValue name content modPolicy).IsNew depth := by
  refine h.of_groups_eq ⟨h.here.version, fun key v hv => ?_, h.here.policies⟩ rfl
  rw [Group.setValue, SortedFrom.find?_insert] at hv
  split at hv
  · cases hv
    rfl
  · exact h.here.values key v hv

theorem IsNew.setPolicy (h : g.IsNew depth) (name : String) (policy : AccessPolicy)
    (modPolicy : String) : (g.setPolicy name policy modPolicy).IsNew depth := by
  refine h.of_groups_eq ⟨h.here.version, h.here.values, fun key p hp => ?_⟩ rfl
  rw [Group.setPolicy, SortedFrom.find?_insert] at hp
  split at hp
  · cases hp
    rfl
  · exact h.here.policies key p hp

theorem IsNew.setGroup (h : g.IsNew (depth + 1)) (name : String) (hchild : child.IsNew depth) :
    (g.setGroup name child).IsNew (depth + 1) := by
  refine ⟨⟨h.here.version, h.here.values, h.here.policies⟩, fun key c hc => ?_⟩
  rw [find?_groups_setGroup] at hc
  split at hc
  · cases hc
    exact hchild
  · exact h.2 key c hc

theorem withValueIf_ind {P : Group → Prop} {p : Prop} [Decidable p] {v : StandardValue}
    (hwithout : P g) (hwith : P (g.withValue v)) : P (g.withValueIf p v) := by
  rw [withValueIf]
  split
  · exact hwith
  · exact hwithout

theorem IsNew.withValueIf {p : Prop} [Decidable p] (h : g.IsNew depth) (v : StandardValue) :
    (g.withValueIf p v).IsNew depth :=
  withValueIf_ind h (h.setValue _ _ _)

theorem IsNew.nesting_le (h : g.IsNew depth) : g.nesting ≤ 2 * depth + 3 := by
  induction g using Group.ind generalizing depth with
  | step g ih =>
    refine nesting_le_of_children (by omega) fun name child hc => ?_
    obtain ⟨above, rfl, hchild⟩ := h.exists_of_child hc
    have := ih name child hc hchild
    omega

end Group

/-! ## Groups under the admins -/

/-- A new group that the admins govern by a policy of its own. -/
structure Group.IsSection (depth : Nat) (g : Group) : Prop where
  isNew : g.IsNew depth
  modPolicy : g.modPolicy = adminsPolicy
  policies : g.policies.contains adminsPolicy = true

namespace Group.IsSection

variable {g child : Group} {depth : Nat}

theorem succ (h : g.IsSection depth) : g.IsSection (depth + 1) :=
  ⟨h.isNew.succ, h.modPolicy, h.policies⟩

theorem setValue (h : g.IsSection depth) (name : String) (content : Bytes) (modPolicy : String) :
    (g.setValue name content modPolicy).IsSection depth :=
  ⟨h.isNew.setValue name content modPolicy, h.modPolicy, h.policies⟩

theorem withValue (h : g.IsSection depth) (v : StandardValue) : (g.withValue v).IsSection depth :=
  h.setValue _ _ _

theorem withValueIf {p : Prop} [Decidable p] (h : g.IsSection depth) (v : StandardValue) :
    (g.withValueIf p v).IsSection depth :=
  withValueIf_ind h (h.withValue v)

theorem setGroup (h : g.IsSection (depth + 1)) (name : String) (hchild : child.IsNew depth) :
    (g.setGroup name child).IsSection (depth + 1) :=
  ⟨h.isNew.setGroup name hchild, h.modPolicy, h.policies⟩

end Group.IsSection

/-! ## Policies -/

namespace Group

theorem compilePolicies_ind {P : Group → Prop} {modPolicy : String}
    (hset : ∀ g name policy, P g → P (g.setPolicy name policy modPolicy)) {g : Group} (hg : P g)
    (ds : List (String × PolicyDef)) : P (g.compilePolicies modPolicy ds).1 := by
  induction ds generalizing g with
  | nil => exact hg
  | cons e ds ih =>
    obtain ⟨name, d⟩ := e
    rw [compilePolicies]
    split
    · next policy _ => exact ih (hset g name policy hg)
    · exact hg

theorem isSection_ofPolicies {policies : NameMap PolicyDef} {required : List String} {g : Group}
    (hadmins : adminsPolicy ∈ required) (h : ofPolicies policies required = .ok g) :
    g.IsSection 0 := by
  have hnew := compilePolicies_ind (fun g name policy hg => hg.setPolicy name policy adminsPolicy)
    (isNew_governedBy adminsPolicy) policies.toList
  rw [(ofPolicies_eq_ok h).2] at hnew
  obtain ⟨hmade, hrequired⟩ := made_ofPolicies h
  exact ⟨hnew, hmade.modPolicy, (hmade.names adminsPolicy).2 (hrequired adminsPolicy hadmins)⟩

end Group

/-! ## Organizations -/

namespace Organization

variable {loader : MaterialLoader} {o : Organization} {g : Group}

theorem isNew_memberGroup (h : o.memberGroup loader = .ok g) : g.IsNew 0 := by
  rw [memberGroup] at h
  split at h
  · cases h
  · split at h
    · cases h
    · obtain ⟨msp, -, h⟩ := exists_of_bind_eq_ok h
      obtain ⟨root, hroot, h⟩ := exists_of_bind_eq_ok h
      cases h
      exact ((Group.isSection_ofPolicies (by decide) (eq_ok_of_within hroot)).withValue _).isNew

theorem isNew_groupWith {extras : Group → Group} (hextras : ∀ g, g.IsNew 0 → (extras g).IsNew 0)
    (h : o.groupWith extras loader = .ok g) : g.IsNew 0 := by
  rw [groupWith] at h
  split at h
  · cases h
    exact Group.isNew_governedBy adminsPolicy
  · obtain ⟨member, hmember, rfl⟩ := exists_of_map_eq_ok h
    exact hextras member (isNew_memberGroup hmember)

theorem isNew_ordererGroup (h : o.ordererGroup loader = .ok g) : g.IsNew 0 :=
  isNew_groupWith (fun _ hg => hg.withValueIf _) h

theorem isNew_applicationGroup (h : o.applicationGroup loader = .ok g) : g.IsNew 0 :=
  isNew_groupWith (fun _ hg => hg.withValueIf _) h

theorem isNew_consortiumGroup (h : o.consortiumGroup loader = .ok g) : g.IsNew 0 :=
  isNew_groupWith (fun _ hg => hg) h

end Organization

/-! ## Sections -/

theorem ApplicationSection.isSection_group {loader : MaterialLoader} {s : ApplicationSection}
    {g : Group} (h : s.group loader = .ok g) : g.IsSection 1 := by
  obtain ⟨root, hroot, h⟩ := exists_of_bind_eq_ok h
  have hroot := (Group.isSection_ofPolicies (by decide) (eq_ok_of_within hroot)).succ
  exact Group.withOrganizations_ind
    (fun g o child hg hchild => hg.setGroup o.name (Organization.isNew_applicationGroup hchild))
    ((hroot.withValueIf _).withValueIf _) h

theorem OrdererSection.isSection_group {loader : MaterialLoader} {s : OrdererSection} {g : Group}
    (h : s.group loader = .ok g) : g.IsSection 1 := by
  obtain ⟨root, hroot, h⟩ := exists_of_bind_eq_ok h
  obtain ⟨-, -, h⟩ := exists_of_bind_eq_ok h
  obtain ⟨metadata, -, h⟩ := exists_of_bind_eq_ok h
  have hroot := (Group.isSection_ofPolicies (by decide) (eq_ok_of_within hroot)).succ
  exact Group.withOrganizations_ind
    (fun g o child hg hchild => hg.setGroup o.name (Organization.isNew_ordererGroup hchild))
    ((((hroot.withValue _).withValue _).withValue _).withValueIf _ |>.withValueIf _
      |>.withValue _) h

theorem ConsortiumSection.isNew_group {loader : MaterialLoader} {s : ConsortiumSection} {g : Group}
    (h : s.group loader = .ok g) : g.IsNew 1 := by
  obtain ⟨root, hroot, h⟩ := exists_of_bind_eq_ok h
  cases h
  have hroot : root.IsNew 1 := Group.withOrganizations_ind
    (fun g o child hg hchild => hg.setGroup o.name (Organization.isNew_consortiumGroup hchild))
    (Group.isNew_governedBy ordererAdmins).succ hroot
  exact hroot.setValue _ _ _

theorem Group.isNew_withConsortiums {loader : MaterialLoader}
    {es : List (String × ConsortiumSection)} {g g' : Group} (hg : g.IsNew 2)
    (h : g.withConsortiums loader es = .ok g') : g'.IsNew 2 := by
  induction es generalizing g with
  | nil =>
    cases h
    exact hg
  | cons e es ih =>
    obtain ⟨child, hchild, h⟩ := exists_of_bind_eq_ok h
    exact ih (hg.setGroup _ (ConsortiumSection.isNew_group (eq_ok_of_within hchild))) h

theorem isNew_consortiumsGroupOf {loader : MaterialLoader}
    {consortiums : NameMap ConsortiumSection} {g : Group}
    (h : consortiumsGroupOf loader consortiums = .ok g) : g.IsNew 2 :=
  Group.isNew_withConsortiums ((Group.isNew_governedBy ordererAdmins).setPolicy _ _ _).succ.succ h

/-! ## The root -/

theorem Group.withSection_eq_ok {S : Type} {name : String} {build : S → Result Group}
    {g g' : Group} {s : Option S} (h : g.withSection name build s = .ok g') :
    s = none ∧ g' = g ∨
      ∃ t child, s = some t ∧ build t = .ok child ∧ g' = g.setGroup name child := by
  cases s with
  | none =>
    cases h
    exact .inl ⟨rfl, rfl⟩
  | some s =>
    obtain ⟨child, hchild, h⟩ := exists_of_bind_eq_ok h
    cases h
    exact .inr ⟨s, child, rfl, hchild, rfl⟩

theorem Group.IsSection.withSection {S : Type} {name : String} {build : S → Result Group}
    {g g' : Group} {s : Option S} {depth : Nat} (hg : g.IsSection (depth + 1))
    (hbuild : ∀ s child, build s = .ok child → child.IsNew depth)
    (h : g.withSection name build s = .ok g') : g'.IsSection (depth + 1) := by
  obtain ⟨-, rfl⟩ | ⟨s, child, -, hchild, rfl⟩ := Group.withSection_eq_ok h
  · exact hg
  · exact hg.setGroup name (hbuild s child hchild)

namespace Profile

variable {loader : MaterialLoader} {p : Profile} {g : Group}

theorem isSection_withRootValues {depth : Nat} (h : g.IsSection depth) :
    (p.withRootValues g).IsSection depth := by
  have hbase := (h.withValue (.hashingAlgorithm hashingAlgorithm)).withValue
    (.blockDataHashingStructure blockDataHashing)
  rw [withRootValues]
  refine Group.IsSection.withValueIf ?_ _
  split
  · refine Group.IsSection.withValue ?_ _
    split
    · exact hbase
    · exact hbase.setValue _ _ _
  · split
    · exact hbase
    · exact hbase.setValue _ _ _

theorem isSection_of_channelGroup (h : p.channelGroup loader = .ok g) : g.IsSection 3 := by
  obtain ⟨root, hroot, h⟩ := exists_of_bind_eq_ok h
  obtain ⟨withOrderer, horderer, h⟩ := exists_of_bind_eq_ok h
  obtain ⟨withApplication, happlication, h⟩ := exists_of_bind_eq_ok h
  have hroot := (Group.isSection_ofPolicies (by decide) (eq_ok_of_within hroot)).succ.succ.succ
  have horderer := (isSection_withRootValues hroot).withSection
    (fun _ _ hs => (OrdererSection.isSection_group hs).isNew.succ) horderer
  have happlication := horderer.withSection
    (fun _ _ hs => (ApplicationSection.isSection_group hs).isNew.succ) happlication
  exact happlication.withSection (fun _ _ => isNew_consortiumsGroupOf) h

/-- A profile with an application has its group, and nothing that comes later replaces it. -/
theorem exists_of_channelGroup (h : p.channelGroup loader = .ok g)
    (happlication : p.application.isSome) :
    ∃ a, g.groups.find? applicationGroup = some a ∧ a.IsSection 1 := by
  obtain ⟨root, -, h⟩ := exists_of_bind_eq_ok h
  obtain ⟨withOrderer, -, h⟩ := exists_of_bind_eq_ok h
  obtain ⟨withApplication, hwith, h⟩ := exists_of_bind_eq_ok h
  obtain ⟨hnone, -⟩ | ⟨s, a, -, ha, rfl⟩ := Group.withSection_eq_ok hwith
  · rw [hnone] at happlication
    cases happlication
  · refine ⟨a, ?_, ApplicationSection.isSection_group ha⟩
    obtain ⟨-, rfl⟩ | ⟨consortiums, child, -, -, rfl⟩ := Group.withSection_eq_ok h
    · rw [Group.find?_groups_setGroup, if_pos rfl]
    · -- the consortiums stand under another name
      rw [Group.find?_groups_setGroup, if_neg (by decide), Group.find?_groups_setGroup, if_pos rfl]

end Profile

/-! ## A small channel -/

/-- The same rule for every required policy. -/
def PolicyDef.standard : NameMap PolicyDef :=
  .ofList (standardPolicies.map fun name => (name, implicitMeta "ANY Admins"))

def AccessPolicy.standard : NameMap ConfigPolicy :=
  .ofList (standardPolicies.map fun name =>
    (name, {
      content := some (implicitMeta .any adminsPolicy).toMessage
      modPolicy := adminsPolicy }))

/-- A channel with one organization, whose material is out of reach. -/
def Profile.small : Profile where
  consortium := some "SampleConsortium"
  application := some {
    organizations := [{ name := "Org1", skipAsForeign := true }]
    policies := PolicyDef.standard }
  policies := PolicyDef.standard

def Group.small : Group where
  groups := .ofList [(applicationGroup, {
    groups := .ofList [("Org1", governedBy adminsPolicy)]
    policies := AccessPolicy.standard
    modPolicy := adminsPolicy })]
  values := .ofList ([.hashingAlgorithm hashingAlgorithm,
    .blockDataHashingStructure blockDataHashing, .consortium { name := "SampleConsortium" }].map
      fun v : StandardValue => (v.key, { content := v.encode, modPolicy := adminsPolicy }))
  policies := AccessPolicy.standard
  modPolicy := adminsPolicy

theorem Profile.channelGroup_small :
    Profile.small.channelGroup (MaterialStore.loader {}) = .ok Group.small := by
  have h : (Profile.small.channelGroup (MaterialStore.loader {})).toOption = some Group.small := by
    decide +kernel
  exact eq_ok_of_toOption h

end ChannelConfig
