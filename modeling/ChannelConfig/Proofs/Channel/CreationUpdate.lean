import ChannelConfig.Proofs.Channel.Creation
import ChannelConfig.Proofs.Channel.Valid
import ChannelConfig.Proofs.Tree.Distinguish

/-! The update that creates a channel, from any template. `creationUpdate_cases` lists how its making
ends: the profile is at fault, the template is the tree already, or there is the update between the
two with an entry for the consortium put over whatever stands at that name in either set. -/

set_option autoImplicit false

namespace ChannelConfig

namespace Group

/-- The group is the other one except for the value of that name. -/
structure EqualsBut (g base : Group) (name : String) (v : ConfigValue) : Prop where
  value : g.values.find? name = some v
  values : ∀ key, key ≠ name → g.values.find? key = base.values.find? key
  groups : g.groups = base.groups
  policies : g.policies = base.policies
  version : g.version = base.version
  modPolicy : g.modPolicy = base.modPolicy

theorem withConsortium_equalsBut (content : Bytes) (g : Group) :
    (g.withConsortium content).EqualsBut g "Consortium"
      { version := 0, content, modPolicy := "" } := by
  have hfind : ∀ key, (g.withConsortium content).values.find? key =
      if "Consortium" = key then some { content } else g.values.find? key :=
    g.values.find?_insert "Consortium" { content }
  constructor
  · rw [hfind, if_pos rfl]
  · intro key hkey
    rw [hfind, if_neg hkey.symm]
  · rfl
  · rfl
  · rfl
  · rfl

end Group

namespace Profile

/-- The profile describes a new channel: it has an application and names a consortium, and the tree
is the one that it is built to. -/
structure DescribesChannel (p : Profile) (loader : MaterialLoader) (name : String)
    (tree : Group) : Prop where
  application : p.application.isSome
  consortium : p.consortium = some name
  named : name ≠ ""
  built : p.channelGroup loader = .ok tree

variable {loader : MaterialLoader} {p : Profile} {name : String} {tree : Group}

theorem consortiumName?_eq_some_iff :
    p.consortiumName? = some name ↔ p.consortium = some name ∧ name ≠ "" := by
  rw [consortiumName?, Option.filter_eq_some_iff]
  simp

theorem DescribesChannel.unique {name' : String} {tree' : Group}
    (h : p.DescribesChannel loader name tree) (h' : p.DescribesChannel loader name' tree') :
    name = name' ∧ tree = tree' := by
  have hname := h.consortium
  have htree := h.built
  rw [h'.consortium] at hname
  rw [h'.built] at htree
  cases hname
  cases htree
  exact ⟨rfl, rfl⟩

theorem DescribesChannel.exists_and_iff (h : p.DescribesChannel loader name tree)
    {Q : Group → Prop} :
    (∃ name tree, p.DescribesChannel loader name tree ∧ Q tree) ↔ Q tree := by
  constructor
  · rintro ⟨name', tree', h', hQ⟩
    obtain ⟨rfl, rfl⟩ := h.unique h'
    exact hQ
  · intro hQ
    exact ⟨name, tree, h, hQ⟩

theorem exists_error_of_not_describes (h : ∀ name tree, ¬ p.DescribesChannel loader name tree)
    (channelId : String) (template : Group) :
    ∃ e, p.creationUpdate loader channelId template = .error e ∧ e.OfInput := by
  unfold creationUpdate
  split
  · exact ⟨_, rfl, .validation⟩
  · next happlication =>
    split
    · exact ⟨_, rfl, .validation⟩
    · next name hname =>
      obtain ⟨hconsortium, hnamed⟩ := consortiumName?_eq_some_iff.1 hname
      cases htree : p.channelGroup loader with
      | error e =>
        -- building never compares, so its errors are none about differences
        have he := (p.decides_channelGroup loader).ofInput e htree
        exact ⟨_, rfl, he.within _⟩
      | ok tree =>
        have hsome : p.application.isSome := by
          simpa [Option.isSome_iff_ne_none] using happlication
        exact absurd ⟨hsome, hconsortium, hnamed, htree⟩ (h name tree)

theorem creationUpdate_cases (loader : MaterialLoader) (p : Profile) (channelId : String)
    (template : Group) :
    ((∀ name tree, ¬ p.DescribesChannel loader name tree) ∧
      ∃ e, p.creationUpdate loader channelId template = .error e ∧ e.OfInput) ∨
    ∃ name tree, p.DescribesChannel loader name tree ∧
      (template.SameContent tree ∧
          p.creationUpdate loader channelId template = .error .noDifferences ∨
        ¬ template.SameContent tree ∧ ∃ read write,
          updateBetween template tree = .ok { readSet := some read, writeSet := some write } ∧
          p.creationUpdate loader channelId template = .ok {
            channelId
            readSet := some (read.withConsortium [])
            writeSet := some (write.withConsortium (Wire.encode { name : Consortium })) }) := by
  by_cases hdescribes : ∃ name tree, p.DescribesChannel loader name tree
  · obtain ⟨name, tree, h⟩ := hdescribes
    refine .inr ⟨name, tree, h, ?_⟩
    have hname := consortiumName?_eq_some_iff.2 ⟨h.consortium, h.named⟩
    rw [creationUpdate_eq_map h.application hname h.built]
    by_cases hsame : template.SameContent tree
    · rw [Group.updateBetween_eq_error_iff.2 ⟨hsame, rfl⟩]
      exact .inl ⟨hsame, rfl⟩
    · rw [Group.updateBetween_eq_ok_iff.2 ⟨hsame, rfl⟩]
      exact .inr ⟨hsame, _, _, rfl, rfl⟩
  · have h : ∀ name tree, ¬ p.DescribesChannel loader name tree :=
      fun name tree h => hdescribes ⟨name, tree, h⟩
    exact .inl ⟨h, exists_error_of_not_describes h channelId template⟩

/-- From every template, there is an update exactly if the profile describes a channel and the tree
of the channel has other content. It is the update from the template to the tree but for the name of
the channel and for the consortium: both sets have it at version 0, the written one with its name,
whatever the update says of it. -/
theorem creationUpdate_forces_consortium (loader : MaterialLoader) (p : Profile)
    (channelId : String) (template : Group) :
    ((∃ d, p.creationUpdate loader channelId template = .ok d) ↔
      ∃ name tree, p.DescribesChannel loader name tree ∧ ¬ template.SameContent tree) ∧
    (p.creationUpdate loader channelId template = .error .noDifferences ↔
      ∃ name tree, p.DescribesChannel loader name tree ∧ template.SameContent tree) ∧
    ∀ name tree, p.DescribesChannel loader name tree → ¬ template.SameContent tree →
      ∃ read write read' write',
        updateBetween template tree = .ok { readSet := some read, writeSet := some write } ∧
        p.creationUpdate loader channelId template =
          .ok { channelId, readSet := some read', writeSet := some write' } ∧
        read'.EqualsBut read "Consortium" { version := 0, content := [], modPolicy := "" } ∧
        write'.EqualsBut write "Consortium" {
          version := 0
          content := Wire.encode { name : Consortium }
          modPolicy := "" } := by
  rcases creationUpdate_cases loader p channelId template with
    ⟨hnone, e, he, hinput⟩ | ⟨name, tree, h, ⟨hsame, he⟩ | ⟨hdiffers, read, write, hupdate, hok⟩⟩
  · rw [he]
    have hfalse : ∀ Q : Group → Prop, ¬ ∃ name tree, p.DescribesChannel loader name tree ∧ Q tree :=
      fun _ ⟨name, tree, h, _⟩ => hnone name tree h
    refine ⟨iff_of_false nofun (hfalse _), iff_of_false ?_ (hfalse _), ?_⟩
    · rintro ⟨⟩
      cases hinput
    · intro name tree h
      exact absurd h (hnone name tree)
  -- from here on the profile fixes the name and the tree, which leaves the contents to compare
  · rw [he, h.exists_and_iff, h.exists_and_iff]
    refine ⟨iff_of_false nofun (not_not_intro hsame), iff_of_true rfl hsame, ?_⟩
    intro name' tree' h' hdiffers
    obtain ⟨rfl, rfl⟩ := h.unique h'
    exact absurd hsame hdiffers
  · rw [hok, h.exists_and_iff, h.exists_and_iff]
    refine ⟨iff_of_true ⟨_, rfl⟩ hdiffers, iff_of_false nofun hdiffers, ?_⟩
    intro name' tree' h' _
    obtain ⟨rfl, rfl⟩ := h.unique h'
    exact ⟨read, write, _, _, hupdate, rfl, read.withConsortium_equalsBut [],
      write.withConsortium_equalsBut _⟩

/-- The small tree with a past, under no policy. -/
def agedTemplate : Group := { Group.small with
  values := Group.small.values.map fun _ v => { v with version := 3 }
  modPolicy := "" }

/-- The consortium is repeated as it was in the update between the trees, and forced by the one that
creates the channel. -/
theorem creationUpdate_forces_consortium_small : ∃ read write read' write',
    updateBetween agedTemplate Group.small =
      .ok { readSet := some read, writeSet := some write } ∧
    small.creationUpdate (MaterialStore.loader {}) "mychannel" agedTemplate =
      .ok { channelId := "mychannel", readSet := some read', writeSet := some write' } ∧
    read.values.find? "Consortium" = some {
      version := 3
      content := Wire.encode { name := "SampleConsortium" : Consortium }
      modPolicy := "Admins" } ∧
    read'.EqualsBut read "Consortium" { version := 0, content := [], modPolicy := "" } ∧
    write'.EqualsBut write "Consortium" {
      version := 0
      content := Wire.encode { name := "SampleConsortium" : Consortium }
      modPolicy := "" } := by
  have h : small.DescribesChannel (MaterialStore.loader {}) "SampleConsortium" Group.small :=
    ⟨rfl, rfl, by decide, channelGroup_small⟩
  have hdiffers : ¬ agedTemplate.SameContent Group.small := by
    intro hsame
    have hpolicy : "" = "Admins" := (Group.sameContent_iff.1 hsame).1
    exact absurd hpolicy (by decide)
  obtain ⟨read, write, read', write', hupdate, hok, hread, hwrite⟩ :=
    (creationUpdate_forces_consortium (MaterialStore.loader {}) small "mychannel"
      agedTemplate).2.2 _ _ h hdiffers
  refine ⟨read, write, read', write', hupdate, hok, ?_, hread, hwrite⟩
  obtain ⟨-, hdelta⟩ := Group.updateBetween_eq_ok_iff.1 hupdate
  cases hdelta
  decide +kernel

end Profile

end ChannelConfig
