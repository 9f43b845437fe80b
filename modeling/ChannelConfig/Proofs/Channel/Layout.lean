import ChannelConfig.Proofs.Channel.Sections

/-! The shape of a channel's tree and who controls it. `Profile.Layout` goes through the tree from the
root down and says of each group which policies it has, who may change it and which groups are below;
`Profile.channelGroup_layout` says so of every tree that is built. -/

set_option autoImplicit false

namespace ChannelConfig

/-! ## What is said of a group -/

/-- The group has these policies, no entry has a version yet, and `governor` controls all but some
values. -/
structure Group.Governed (g : Group) (governor : String) (policyNames : List String) : Prop where
  version : g.version = 0
  modPolicy : g.modPolicy = governor
  values : ∀ name v, g.values.find? name = some v → v.version = 0 ∧ v.modPolicy = valueGovernor name
  policies : ∀ name p, g.policies.find? name = some p → p.version = 0 ∧ p.modPolicy = governor
  names : ∀ name, g.policies.contains name = true ↔ name ∈ policyNames

structure Organization.Layout (o : Organization) (g : Group) : Prop where
  governed : g.Governed "Admins" (if o.skipAsForeign then [] else o.policies.names)
  required : o.skipAsForeign = false →
    ∀ name ∈ ["Admins", "Readers", "Writers"], g.policies.contains name = true
  childless : ∀ name, g.groups.find? name = none

/-- The group of a section with policies and organizations. -/
structure Group.SectionLayout (g : Group) (policies : NameMap PolicyDef) (required : List String)
    (os : List Organization) (build : Organization → Result Group) : Prop where
  governed : g.Governed "Admins" policies.names
  required : ∀ name ∈ required, g.policies.contains name = true
  organizations : g.Lists os fun o child => build o = .ok child ∧ o.Layout child

structure ConsortiumSection.Layout (loader : MaterialLoader) (s : ConsortiumSection) (g : Group) :
    Prop where
  governed : g.Governed "/Channel/Orderer/Admins" []
  organizations : g.Lists s.organizations fun o child =>
    o.consortiumGroup loader = .ok child ∧ o.Layout child

/-- The group of all consortiums. Its one policy asks for none of no rules. -/
structure Group.ConsortiumsLayout (loader : MaterialLoader) (cs : NameMap ConsortiumSection)
    (g : Group) : Prop where
  governed : g.Governed "/Channel/Orderer/Admins" ["Admins"]
  admins : ∃ p, g.policies.find? "Admins" = some p ∧
    p.content = some (AccessPolicy.signature { rule := some (.nOutOf 0 []) }).toMessage
  names : ∀ name, g.groups.contains name = true ↔ cs.contains name = true
  consortiums : ∀ name s, cs.find? name = some s →
    ∃ child, g.groups.find? name = some child ∧ s.Layout loader child

structure Profile.Layout (loader : MaterialLoader) (p : Profile) (g : Group) : Prop where
  governed : g.Governed "Admins" p.policies.names
  required : ∀ name ∈ ["Admins", "Readers", "Writers"], g.policies.contains name = true
  orderer : g.HasSection "Orderer" p.orderer fun s child =>
    child.SectionLayout s.policies ["Admins", "Readers", "Writers", "BlockValidation"]
      s.organizations (·.ordererGroup loader)
  application : g.HasSection "Application" p.application fun s child =>
    child.SectionLayout s.policies ["Admins", "Readers", "Writers"] s.organizations
      (·.applicationGroup loader)
  consortiums : g.HasSection "Consortiums" p.consortiums (Group.ConsortiumsLayout loader)
  others : ∀ name, name ∉ ["Orderer", "Application", "Consortiums"] → g.groups.find? name = none

/-! ## From what the builders make -/

variable {loader : MaterialLoader} {g : Group}

theorem Group.Made.governed {governor : String} {policyNames : List String}
    {vs : List StandardValue} (h : g.Made governor policyNames vs) :
    g.Governed governor policyNames :=
  ⟨h.version, h.modPolicy, fun _ _ hv => h.of_find?_values hv, h.policies, h.names⟩

theorem Organization.Makes.layout {o : Organization} {own : List StandardValue}
    (h : o.Makes loader own g) (hchildless : ∀ name, g.groups.find? name = none) : o.Layout g := by
  cases h with
  | foreign hforeign made =>
    refine ⟨?_, fun hmember => ?_, hchildless⟩
    · rw [if_pos hforeign]
      exact made.governed
    · rw [hforeign] at hmember
      cases hmember
  | member m msp hmember _ _ required made =>
    refine ⟨?_, fun _ name hname => (made.names name).2 (required name hname), hchildless⟩
    rw [if_neg (by simp [hmember])]
    exact made.governed

theorem Group.IsSectionOf.layout {policies : NameMap PolicyDef} {required : List String}
    {vs : List StandardValue} {os : List Organization} {build : Organization → Result Group}
    (h : g.IsSectionOf policies required vs os build)
    (hbuild : ∀ o child, build o = .ok child → o.Layout child) :
    g.SectionLayout policies required os build := by
  refine ⟨h.made.governed, fun name hname => ?_, h.organizations.imp fun o child hchild => ?_⟩
  · exact (h.made.names name).2 (h.required name hname)
  · exact ⟨hchild, hbuild o child hchild⟩

theorem OrdererSection.layout_of_group {s : OrdererSection} (h : s.group loader = .ok g) :
    g.SectionLayout s.policies ordererPolicies s.organizations (·.ordererGroup loader) := by
  obtain ⟨metadata, -, hsection⟩ := exists_of_group h
  refine hsection.layout fun o child hchild => ?_
  exact (Organization.makes_of_ordererGroup hchild).layout (Organization.isNew_ordererGroup hchild).2

theorem ApplicationSection.layout_of_group {s : ApplicationSection} (h : s.group loader = .ok g) :
    g.SectionLayout s.policies standardPolicies s.organizations (·.applicationGroup loader) := by
  refine (isSectionOf_of_group h).layout fun o child hchild => ?_
  exact (Organization.makes_of_applicationGroup hchild).layout
    (Organization.isNew_applicationGroup hchild).2

theorem ConsortiumSection.layout_of_group {s : ConsortiumSection} (h : s.group loader = .ok g) :
    s.Layout loader g := by
  obtain ⟨hmade, hlists⟩ := made_of_group h
  refine ⟨hmade.governed, hlists.imp fun o child hchild => ⟨hchild, ?_⟩⟩
  exact (Organization.makes_of_consortiumGroup hchild).layout
    (Organization.isNew_consortiumGroup hchild).2

theorem Group.IsConsortiumsOf.layout {cs : NameMap ConsortiumSection}
    (h : g.IsConsortiumsOf loader cs) : g.ConsortiumsLayout loader cs := by
  refine ⟨h.made.governed, ⟨_, h.admins, rfl⟩, h.names, fun name s hs => ?_⟩
  obtain ⟨child, hchild, hbuilt⟩ := h.built name s hs
  exact ⟨child, hchild, ConsortiumSection.layout_of_group hbuilt⟩

/-! ## Every tree -/

/-- A tree that is built has no version in it, a group for each section of the profile, below these
one for each name of an organization, made from the last organization of that name, and the policies
that the profile gives. The admins control everything in it, except for what the ordering service's
admins do: the orderer's addresses and whatever belongs to a consortium rather than to a member. -/
theorem Profile.channelGroup_layout {p : Profile} (h : p.channelGroup loader = .ok g) :
    p.Layout loader g := by
  have hroot := isRootOf_of_channelGroup h
  refine ⟨hroot.made.governed, fun name hname => ?_, ?_, ?_, ?_, fun name hname => ?_⟩
  · exact (hroot.made.names name).2 (hroot.required name hname)
  · exact hroot.orderer.imp fun s child hs => OrdererSection.layout_of_group hs
  · exact hroot.application.imp fun s child hs => ApplicationSection.layout_of_group hs
  · exact hroot.consortiums.imp fun cs child hcs =>
      (isConsortiumsOf_of_consortiumsGroupOf hcs).layout
  · simp only [List.mem_cons, List.not_mem_nil, or_false, not_or] at hname
    exact hroot.others name hname.1 hname.2.1 hname.2.2

theorem Profile.channelGroup_layout_full :
    ∃ g, Profile.full.channelGroup MaterialStore.full.loader = .ok g ∧
      Profile.full.Layout MaterialStore.full.loader g := by
  obtain ⟨g, hg⟩ := exists_channelGroup_full
  exact ⟨g, hg, channelGroup_layout hg⟩

end ChannelConfig
