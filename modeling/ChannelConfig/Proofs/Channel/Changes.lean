import ChannelConfig.Proofs.Channel.Sections
import ChannelConfig.Proofs.Tree.Mention
import ChannelConfig.Proofs.Tree.Versions

/-! Updates between the trees of two profiles. What the profiles have in common is built into the same
group in both trees, and an update names no group that both trees have alike (`notNamed_of_eq`). What
only one profile lists stands in one tree only, and that changes every group above it. -/

set_option autoImplicit false

namespace ChannelConfig

/-! ## Groups that an update does not name -/

namespace Group

/-- Neither set has a group at the path. -/
def NotNamed (read write : Group) (path : List String) : Prop :=
  read.at? path = none ∧ write.at? path = none

theorem at?_singleton (g : Group) (name : String) : g.at? [name] = g.groups.find? name := by
  rw [at?_cons]
  exact Option.bind_fun_some _

section

variable {current updated : Group} {path : List String} (h : ¬ current.SameContent updated)

include h

theorem notNamed_of_not (hchanged : ¬ ChangedAt current updated path)
    (hadded : ¬ AddedAt current updated path) :
    NotNamed (current.delta updated).read (current.delta updated).write path := by
  constructor
  · rw [← Option.not_isSome_iff_eq_none, isSome_at?_read_delta h]
    exact hchanged
  · rw [← Option.not_isSome_iff_eq_none, isSome_at?_write_delta h]
    exact not_or.2 ⟨hchanged, hadded⟩

theorem notNamed_of_eq (heq : current.at? path = updated.at? path) :
    NotNamed (current.delta updated).read (current.delta updated).write path := by
  refine notNamed_of_not h ?_ ?_
  · rintro ⟨c, u, hc, hu, hne⟩
    rw [hc, hu, Option.some.injEq] at heq
    rw [heq] at hne
    exact hne (SameContent.refl u)
  · rintro ⟨hc, u, hu⟩
    rw [hc, hu] at heq
    cases heq

theorem notNamed_of_gone (hu : updated.at? path = none) :
    NotNamed (current.delta updated).read (current.delta updated).write path := by
  refine notNamed_of_not h ?_ ?_
  · rintro ⟨c, u, hc, hu', hne⟩
    rw [hu] at hu'
    cases hu'
  · rintro ⟨hc, u, hu'⟩
    rw [hu] at hu'
    cases hu'

/-- A changed group is read at its version and written at the next one. -/
theorem exists_at?_delta_of_changedAt {c : Group} (hc : current.at? path = some c)
    (hchanged : ChangedAt current updated path) :
    ∃ r w, (current.delta updated).read.at? path = some r ∧
      (current.delta updated).write.at? path = some w ∧
      r.version = c.version ∧ w.version = c.version + 1 := by
  have hread := (isSome_at?_read_delta h path).2 hchanged
  have hsaid := saidAt_delta current updated path
  cases hr : (current.delta updated).read.at? path with
  | none =>
    rw [hr] at hread
    cases hread
  | some r =>
    rw [hr] at hsaid
    generalize (current.delta updated).write.at? path = write at hsaid ⊢
    cases hsaid with
    | changed hc' hu =>
      rw [hc] at hc'
      cases hc'
      exact ⟨_, _, rfl, rfl, rfl, rfl⟩

end

/-- A tree before any update has nothing to reset. -/
theorem IsNew.fresh_eq {g : Group} {depth : Nat} (h : g.IsNew depth) : g.fresh = g := by
  induction g using Group.ind generalizing depth with
  | step g ih =>
    refine ext_of_find? ?_ (modPolicy_fresh g) (fun name => ?_) (fun name => ?_) (fun name => ?_)
    · rw [version_fresh, h.here.version]
    · rw [find?_groups_fresh]
      cases hc : g.groups.find? name with
      | none => rfl
      | some child =>
        obtain ⟨above, -, hchild⟩ := h.exists_of_child hc
        exact congrArg some (ih name child hc hchild)
    · rw [find?_values_fresh]
      cases hv : g.values.find? name with
      | none => rfl
      | some v => rw [Option.map_some, Leaf.fresh, ← h.here.values name v hv]
    · rw [find?_policies_fresh]
      cases hp : g.policies.find? name with
      | none => rfl
      | some p => rw [Option.map_some, Leaf.fresh, ← h.here.policies name p hp]

/-! ## Sections and organizations of two trees -/

variable {g g' : Group} {S : Type}

/-- The same section has the same group in both trees. -/
theorem HasSection.find?_eq {name : String} {s : Option S} {build : S → Result Group}
    (h : g.HasSection name s fun t child => build t = .ok child)
    (h' : g'.HasSection name s fun t child => build t = .ok child) :
    g.groups.find? name = g'.groups.find? name := by
  cases s with
  | none => rw [h.absent rfl, h'.absent rfl]
  | some t =>
    obtain ⟨child, hchild, hbuild⟩ := h.present t rfl
    obtain ⟨child', hchild', hbuild'⟩ := h'.present t rfl
    rw [hbuild] at hbuild'
    cases hbuild'
    rw [hchild, hchild']

theorem Lists.find?_eq_none {os : List Organization} {P : Organization → Group → Prop} {name : String}
    (h : g.Lists os P) (hname : ∀ o ∈ os, o.name ≠ name) : g.groups.find? name = none := by
  refine Option.not_isSome_iff_eq_none.1 fun hsome => ?_
  obtain ⟨o, ho, hn⟩ := (h.names name).1 hsome
  exact hname o ho hn

/-- The same organization has the same group in both sections. -/
theorem Lists.find?_eq {os os' : List Organization} {build : Organization → Result Group}
    {o : Organization} (h : g.Lists os fun o child => build o = .ok child)
    (h' : g'.Lists os' fun o child => build o = .ok child) (ho : o.LastIn os) (ho' : o.LastIn os') :
    g.groups.find? o.name = g'.groups.find? o.name := by
  obtain ⟨child, hchild, hbuild⟩ := h.last o ho
  obtain ⟨child', hchild', hbuild'⟩ := h'.last o ho'
  rw [hbuild] at hbuild'
  cases hbuild'
  rw [hchild, hchild']

/-- Sections with other members have other content. -/
theorem Lists.not_sameContent {os os' : List Organization} {P P' : Organization → Group → Prop}
    (h : g.Lists os P) (h' : g'.Lists os' P')
    (hnames : ¬ ∀ name, (∃ o ∈ os, o.name = name) ↔ ∃ o ∈ os', o.name = name) :
    ¬ g.SameContent g' := by
  intro hsame
  refine hnames fun name => ?_
  have hchild := congrArg Option.isSome ((sameContent_iff.1 hsame).2.2.2 name)
  rw [Option.isSome_map, Option.isSome_map] at hchild
  rw [← h.names, ← h'.names, SortedFrom.contains, SortedFrom.contains, hchild]

end Group

/-! ## What an update says -/

/-- The update keeps to what differs between the profiles: of equal sections and of members that stay
as they are it says nothing, new members it writes whole, and members that leave it does not name. -/
structure Profile.KeepsToChanges (loader : MaterialLoader) (p q : Profile) (read write : Group) :
    Prop where
  orderer : p.orderer = q.orderer → read.NotNamed write ["Orderer"]
  application : p.application = q.application → read.NotNamed write ["Application"]
  consortiums : p.consortiums = q.consortiums → read.NotNamed write ["Consortiums"]
  kept : ∀ s t, p.application = some s → q.application = some t → ∀ o : Organization,
    o.LastIn s.organizations → o.LastIn t.organizations →
    read.NotNamed write ["Application", o.name]
  added : ∀ s t, p.application = some s → q.application = some t → ∀ o : Organization,
    o.LastIn t.organizations → (∀ o' ∈ s.organizations, o'.name ≠ o.name) →
    read.at? ["Application", o.name] = none ∧
      ∃ g, o.applicationGroup loader = .ok g ∧ write.at? ["Application", o.name] = some g
  removed : ∀ s t, p.application = some s → q.application = some t → ∀ o ∈ s.organizations,
    (∀ o' ∈ t.organizations, o'.name ≠ o.name) → read.NotNamed write ["Application", o.name]
  /-- Where members come or go, the section and the root are read at version 0 and written at 1. -/
  membership : ∀ s t, p.application = some s → q.application = some t →
    (¬ ∀ name, (∃ o ∈ s.organizations, o.name = name) ↔ ∃ o ∈ t.organizations, o.name = name) →
    read.version = 0 ∧ write.version = 1 ∧ ∃ r w,
      read.at? ["Application"] = some r ∧ write.at? ["Application"] = some w ∧
      r.version = 0 ∧ w.version = 1

namespace Profile

variable {loader : MaterialLoader} {p q : Profile} {tree tree' : Group}

theorem at?_member {a : Group} (ha : tree.groups.find? applicationGroup = some a) (name : String) :
    tree.at? ["Application", name] = a.groups.find? name := by
  rw [← Group.at?_singleton]
  exact Group.at?_cons_of_some ha

/-- The application group has a child group for each name of a member, made of the last member of
that name. -/
theorem exists_applicationGroup (h : p.channelGroup loader = .ok tree) {s : ApplicationSection}
    (hs : p.application = some s) : ∃ a, tree.groups.find? applicationGroup = some a ∧ a.IsNew 1 ∧
      a.Lists s.organizations fun o child => o.applicationGroup loader = .ok child := by
  obtain ⟨a, ha, hbuild⟩ := (isRootOf_of_channelGroup h).application.present s hs
  exact ⟨a, ha, (ApplicationSection.isSection_group hbuild).isNew,
    (ApplicationSection.isSectionOf_of_group hbuild).organizations⟩

section

variable (h : p.channelGroup loader = .ok tree) (h' : q.channelGroup loader = .ok tree')
  {s t : ApplicationSection} (hs : p.application = some s) (ht : q.application = some t)

include h h' hs ht

theorem changedAt_application
    (hnames : ¬ ∀ name, (∃ o ∈ s.organizations, o.name = name) ↔ ∃ o ∈ t.organizations, o.name = name) :
    Group.ChangedAt tree tree' [applicationGroup] := by
  obtain ⟨a, ha, -, hlists⟩ := exists_applicationGroup h hs
  obtain ⟨a', ha', -, hlists'⟩ := exists_applicationGroup h' ht
  rw [← Group.at?_singleton] at ha ha'
  exact ⟨a, a', ha, ha', hlists.not_sameContent hlists' hnames⟩

theorem not_sameContent_of_names
    (hnames : ¬ ∀ name, (∃ o ∈ s.organizations, o.name = name) ↔ ∃ o ∈ t.organizations, o.name = name) :
    ¬ tree.SameContent tree' := fun hsame =>
  hsame.not_changedAt _ (changedAt_application h h' hs ht hnames)

end

theorem keepsToChanges_delta (h : p.channelGroup loader = .ok tree)
    (h' : q.channelGroup loader = .ok tree') (hne : ¬ tree.SameContent tree') :
    KeepsToChanges loader p q (tree.delta tree').read (tree.delta tree').write where
  orderer heq := by
    refine Group.notNamed_of_eq hne ?_
    rw [Group.at?_singleton, Group.at?_singleton]
    exact (isRootOf_of_channelGroup h).orderer.find?_eq
      (heq ▸ (isRootOf_of_channelGroup h').orderer)
  application heq := by
    refine Group.notNamed_of_eq hne ?_
    rw [Group.at?_singleton, Group.at?_singleton]
    exact (isRootOf_of_channelGroup h).application.find?_eq
      (heq ▸ (isRootOf_of_channelGroup h').application)
  consortiums heq := by
    refine Group.notNamed_of_eq hne ?_
    rw [Group.at?_singleton, Group.at?_singleton]
    exact (isRootOf_of_channelGroup h).consortiums.find?_eq
      (heq ▸ (isRootOf_of_channelGroup h').consortiums)
  kept s t hs ht o ho ho' := by
    obtain ⟨a, ha, -, hlists⟩ := exists_applicationGroup h hs
    obtain ⟨a', ha', -, hlists'⟩ := exists_applicationGroup h' ht
    refine Group.notNamed_of_eq hne ?_
    rw [at?_member ha, at?_member ha']
    exact hlists.find?_eq hlists' ho ho'
  added s t hs ht o ho hnew := by
    obtain ⟨a, ha, -, hlists⟩ := exists_applicationGroup h hs
    obtain ⟨a', ha', -, hlists'⟩ := exists_applicationGroup h' ht
    obtain ⟨g, hg, hbuild⟩ := hlists'.last o ho
    have hold : tree.at? ["Application", o.name] = none :=
      (at?_member ha o.name).trans (hlists.find?_eq_none hnew)
    have hnow : tree'.at? ["Application", o.name] = some g := (at?_member ha' o.name).trans hg
    have hparent : (tree.at? [applicationGroup]).isSome = true := by
      rw [Group.at?_singleton, ha]
      rfl
    have hwrite : (tree.delta tree').write.at? ["Application", o.name] = some g.fresh :=
      Group.at?_write_delta_of_parent hparent hold hnow
    rw [(Organization.isNew_applicationGroup hbuild).fresh_eq] at hwrite
    refine ⟨?_, g, hbuild, hwrite⟩
    rw [← Option.not_isSome_iff_eq_none, Group.isSome_at?_read_delta hne]
    rintro ⟨c, u, hc, -⟩
    rw [hold] at hc
    cases hc
  removed s t hs ht o ho hgone := by
    obtain ⟨a', ha', -, hlists'⟩ := exists_applicationGroup h' ht
    refine Group.notNamed_of_gone hne ?_
    exact (at?_member ha' o.name).trans (hlists'.find?_eq_none hgone)
  membership s t hs ht hnames := by
    obtain ⟨a, ha, hnew, -⟩ := exists_applicationGroup h hs
    have hroot : tree.version = 0 := (isSection_of_channelGroup h).isNew.here.version
    have hread : (tree.delta tree').read.version = tree.version := rfl
    have hwrite : (tree.delta tree').write.version = tree.version + 1 := rfl
    rw [← Group.at?_singleton] at ha
    obtain ⟨r, w, hr, hw, hrv, hwv⟩ := Group.exists_at?_delta_of_changedAt hne ha
      (changedAt_application h h' hs ht hnames)
    rw [hread, hwrite, hroot]
    refine ⟨rfl, rfl, r, w, hr, hw, ?_, ?_⟩
    · rw [hrv, hnew.here.version]
    · rw [hwv, hnew.here.version]
      rfl

/-- The update between the trees of two profiles says nothing of what the profiles have in common;
and there is one whenever the members of the application are others. -/
theorem updateBetween_keepsToChanges (h : p.channelGroup loader = .ok tree)
    (h' : q.channelGroup loader = .ok tree') :
    (∀ d, updateBetween tree tree' = .ok d → ∃ read write, d.readSet = some read ∧
      d.writeSet = some write ∧ KeepsToChanges loader p q read write) ∧
    ∀ s t, p.application = some s → q.application = some t →
      (¬ ∀ name, (∃ o ∈ s.organizations, o.name = name) ↔ ∃ o ∈ t.organizations, o.name = name) →
      ∃ d, updateBetween tree tree' = .ok d := by
  refine ⟨fun d hd => ?_, fun s t hs ht hnames => ?_⟩
  · obtain ⟨hne, rfl⟩ := Group.updateBetween_eq_ok_iff.1 hd
    exact ⟨_, _, rfl, rfl, keepsToChanges_delta h h' hne⟩
  · exact ⟨_, Group.updateBetween_eq_ok_iff.2 ⟨not_sameContent_of_names h h' hs ht hnames, rfl⟩⟩

/-- The same channel with one member in place of another. -/
def fullReplaced : Profile :=
  { full with
    application := full.application.map fun s =>
      { s with
        organizations := s.organizations.take 2 ++ [{ name := "Org3", skipAsForeign := true }] } }

theorem updateBetween_keepsToChanges_replaced : ∃ tree tree' d read write,
    full.channelGroup MaterialStore.full.loader = .ok tree ∧
    fullReplaced.channelGroup MaterialStore.full.loader = .ok tree' ∧
    updateBetween tree tree' = .ok d ∧ d.readSet = some read ∧ d.writeSet = some write ∧
    KeepsToChanges MaterialStore.full.loader full fullReplaced read write := by
  obtain ⟨tree, htree⟩ := exists_channelGroup_full
  have hbuilds : (fullReplaced.channelGroup MaterialStore.full.loader).toOption.isSome = true := by
    decide +kernel
  obtain ⟨tree', hsome⟩ := Option.isSome_iff_exists.1 hbuilds
  have htree' := eq_ok_of_toOption hsome
  obtain ⟨hkeeps, hdiffers⟩ := updateBetween_keepsToChanges htree htree'
  obtain ⟨d, hd⟩ := hdiffers _ _ rfl rfl fun hnames => by
    obtain ⟨o, ho, hname⟩ := (hnames "Org2").1 ⟨{ name := "Org2", skipAsForeign := true },
      by decide +kernel, rfl⟩
    revert o
    decide +kernel
  obtain ⟨read, write, hread, hwrite, hall⟩ := hkeeps d hd
  exact ⟨tree, tree', d, read, write, htree, htree', hd, hread, hwrite, hall⟩

end Profile

end ChannelConfig
