import ChannelConfig.Proofs.Json
import ChannelConfig.Proofs.Tree.Content
import ChannelConfig.Proofs.Value.Names
import ChannelConfig.Tree.Inspect

/-! What inspection shows. `Json.ShowsConfig` says what stands where in the listing of a
configuration, down every path of its tree, whatever its payloads and policies hold. A listing fixes
what it shows: configurations with the same listing are alike at every path (`Config.ShownAlike`). -/

set_option autoImplicit false

namespace ChannelConfig

/-! ## Listings -/

namespace Json

/-- A value is listed by what its payload is under the name, or else by the payload itself. -/
structure ShowsValue (name : String) (j : Json) (v : ConfigValue) : Prop where
  version : j.member? "version" = some (.nat v.version.toNat)
  modPolicy : j.member? "mod_policy" = some (.str v.modPolicy)
  decoded : ∀ value, StandardValue.decode name v.content = .ok value →
    j.member? "value" = some value.toJson
  raw : ∀ e, StandardValue.decode name v.content = .error e →
    j.member? "value" = some (.object [("raw", .hex v.content)])

/-- A policy is listed by its text, or else by the reason why it has none. -/
structure ShowsPolicy (j : Json) (p : ConfigPolicy) : Prop where
  version : j.member? "version" = some (.nat p.version.toNat)
  modPolicy : j.member? "mod_policy" = some (.str p.modPolicy)
  absent : p.content = none → j.member? "policy" = some .null
  rendered : ∀ policy text, p.content = some policy →
    AccessPolicy.renderMessage policy = .ok text → j.member? "policy" = some (.str text)
  unreadable : ∀ policy e, p.content = some policy →
    AccessPolicy.renderMessage policy = .error e →
      j.member? "policy" = some (.object [("error", .str e.message)])

/-- A group is listed with every entry that it has, and with no other. -/
structure ShowsGroup (j : Json) (g : Group) : Prop where
  version : j.member? "version" = some (.nat g.version.toNat)
  modPolicy : j.member? "mod_policy" = some (.str g.modPolicy)
  groups : ∃ members, j.member? "groups" = some (.obj members) ∧ members.names = g.groups.names
  values : ∃ members, j.member? "values" = some (.obj members) ∧
    ∀ name, Option.Rel (ShowsValue name) (members.find? name) (g.values.find? name)
  policies : ∃ members, j.member? "policies" = some (.obj members) ∧
    ∀ name, Option.Rel ShowsPolicy (members.find? name) (g.policies.find? name)

/-- The listing of the group at a path of names below the one that is listed. -/
def groupAt? (j : Json) : List String → Option Json
  | [] => some j
  | name :: path => ((j.member? "groups").bind (·.member? name)).bind (·.groupAt? path)

structure ShowsConfig (j : Json) (c : Config) : Prop where
  sequence : j.member? "sequence" = some (.nat c.sequence.toNat)
  noGroup : c.channelGroup = none → j.member? "channel_group" = some .null
  groups : ∀ g, c.channelGroup = some g → ∃ root, j.member? "channel_group" = some root ∧
    ∀ path, Option.Rel ShowsGroup (root.groupAt? path) (g.at? path)

end Json

/-! ## Every configuration is listed -/

theorem ConfigValue.shows_toJson (name : String) (v : ConfigValue) :
    (ConfigValue.toJson name v).ShowsValue name v := by
  refine ⟨Json.member?_object .., Json.member?_object .., fun value hvalue => ?_, fun e he => ?_⟩
  · rw [ConfigValue.toJson, Json.member?_object, hvalue]
    rfl
  · rw [ConfigValue.toJson, Json.member?_object, he]
    rfl

theorem ConfigPolicy.shows_toJson (p : ConfigPolicy) :
    (ConfigPolicy.toJson p).ShowsPolicy p := by
  refine ⟨Json.member?_object .., Json.member?_object .., fun hnone => ?_,
    fun policy text hsome htext => ?_, fun policy e hsome he => ?_⟩
  · rw [ConfigPolicy.toJson, Json.member?_object, hnone]
    rfl
  · rw [ConfigPolicy.toJson, Json.member?_object, hsome]
    simp only [htext]
    rfl
  · rw [ConfigPolicy.toJson, Json.member?_object, hsome]
    simp only [he]
    rfl

namespace Group

theorem toJson_eq (g : Group) : g.toJson = .object [
    ("version", .nat g.version.toNat), ("mod_policy", g.modPolicy),
    ("groups", .obj (toJsonMap g.groups)), ("values", .obj (g.values.map ConfigValue.toJson)),
    ("policies", .obj (g.policies.map fun _ p => ConfigPolicy.toJson p))] := by
  cases g
  rw [toJson]

theorem find?_toJsonMap (key : String) : {lo : Option String} → (m : SortedFrom Group lo) →
    (toJsonMap m).find? key = (m.find? key).map toJson
  | _, .nil => rfl
  | _, .cons name _ g rest => by
    rw [toJsonMap, SortedFrom.find?, SortedFrom.find?, find?_toJsonMap key rest]
    split <;> rfl

theorem names_toJsonMap : {lo : Option String} → (m : SortedFrom Group lo) →
    (toJsonMap m).names = m.names
  | _, .nil => rfl
  | _, .cons name _ g rest => by
    have ih := names_toJsonMap rest
    rw [SortedFrom.names, SortedFrom.names] at ih ⊢
    rw [toJsonMap, SortedFrom.toList, SortedFrom.toList, List.map_cons, List.map_cons, ih]

theorem shows_toJson (g : Group) : g.toJson.ShowsGroup g := by
  rw [toJson_eq]
  refine ⟨Json.member?_object .., Json.member?_object ..,
    ⟨_, Json.member?_object .., names_toJsonMap g.groups⟩,
    ⟨_, Json.member?_object .., fun name => ?_⟩, ⟨_, Json.member?_object .., fun name => ?_⟩⟩
  · rw [SortedFrom.find?_map]
    exact rel_map (ConfigValue.shows_toJson name) _
  · rw [SortedFrom.find?_map]
    exact rel_map ConfigPolicy.shows_toJson _

theorem groupAt?_toJson (g : Group) (path : List String) :
    g.toJson.groupAt? path = (g.at? path).map toJson := by
  induction path generalizing g with
  | nil => rfl
  | cons name path ih =>
    have hgroups : g.toJson.member? "groups" = some (.obj (toJsonMap g.groups)) := by
      rw [toJson_eq, Json.member?_object]
      rfl
    rw [Json.groupAt?, hgroups, Option.bind_some, Json.member?, find?_toJsonMap, at?_cons]
    cases g.groups.find? name with
    | none => rfl
    | some child => exact ih child

end Group

theorem Config.shows_toJson (c : Config) : c.toJson.ShowsConfig c := by
  refine ⟨Json.member?_object .., fun hnone => ?_, fun g hg => ⟨g.toJson, ?_, fun path => ?_⟩⟩
  · rw [Config.toJson, Json.member?_object, hnone]
    rfl
  · rw [Config.toJson, Json.member?_object, hg]
    rfl
  · rw [Group.groupAt?_toJson]
    exact rel_map Group.shows_toJson _

/-! ## What a listing fixes -/

/-- What is read under a name is listed with other members than a payload that cannot be read. -/
theorem StandardValue.member?_raw_toJson (value : StandardValue) :
    value.toJson.member? "raw" = none := by
  cases value with
  | msp v =>
    rw [toJson, mspJson]
    split <;> exact Json.member?_object ..
  | channelCreationPolicy v =>
    rw [toJson, policyJson]
    split <;> exact Json.member?_object ..
  | _ => exact Json.member?_object ..

namespace ConfigValue

variable {name : String} {v w : ConfigValue} {j : Json}

/-- The payload cannot be read: the name is not known, or the bytes are not what it asks for. -/
def IsRaw (name : String) (v : ConfigValue) : Prop :=
  name ∉ StandardValue.names ∨ ∃ e, StandardValue.decode name v.content = .error e

theorem exists_of_isRaw (h : IsRaw name v) : ∃ e, StandardValue.decode name v.content = .error e := by
  rcases h with hname | h
  · exact ⟨_, StandardValue.decode_of_not_mem hname v.content⟩
  · exact h

/-- Values under one name, with the same version and policy, and with the same payload if that
cannot be read. -/
structure ShownAlike (name : String) (v w : ConfigValue) : Prop where
  version : v.version = w.version
  modPolicy : v.modPolicy = w.modPolicy
  content : IsRaw name v ∨ IsRaw name w → v.content = w.content

/-- A listing that shows a payload as it is belongs to that payload only. -/
theorem content_eq_of_isRaw (hv : j.ShowsValue name v) (hw : j.ShowsValue name w)
    (h : IsRaw name v) : v.content = w.content := by
  obtain ⟨e, he⟩ := exists_of_isRaw h
  have hshown := hv.raw e he
  cases hdecode : StandardValue.decode name w.content with
  | ok value =>
    -- what is read is never listed with a member `raw`, so the two listings could not be one
    have hvalue := Option.some.inj (hshown.symm.trans (hw.decoded value hdecode))
    have hraw := StandardValue.member?_raw_toJson value
    rw [← hvalue, Json.member?_object] at hraw
    cases hraw
  | error e' =>
    have hsame := Option.some.inj (hshown.symm.trans (hw.raw e' hdecode))
    have hhex := congrArg (·.member? "raw") hsame
    simp only [Json.member?_object] at hhex
    exact Json.hex_inj.1 (Option.some.inj hhex)

theorem shownAlike (hv : j.ShowsValue name v) (hw : j.ShowsValue name w) :
    ShownAlike name v w := by
  refine ⟨?_, ?_, fun h => ?_⟩
  · exact Json.uint64_eq hv.version hw.version
  · exact Json.str_eq hv.modPolicy hw.modPolicy
  · rcases h with h | h
    · exact content_eq_of_isRaw hv hw h
    · exact (content_eq_of_isRaw hw hv h).symm

end ConfigValue

namespace ConfigPolicy

variable {p q : ConfigPolicy} {j : Json}

/-- Policies of the same version and under the same policy, both there or both absent. -/
structure ShownAlike (p q : ConfigPolicy) : Prop where
  version : p.version = q.version
  modPolicy : p.modPolicy = q.modPolicy
  content : p.content = none ↔ q.content = none

theorem member?_policy_eq_null_iff (h : j.ShowsPolicy p) :
    j.member? "policy" = some .null ↔ p.content = none := by
  refine ⟨fun hnull => ?_, h.absent⟩
  cases hcontent : p.content with
  | none => rfl
  | some policy =>
    cases hrender : AccessPolicy.renderMessage policy with
    | ok text => cases hnull.symm.trans (h.rendered policy text hcontent hrender)
    | error e => cases hnull.symm.trans (h.unreadable policy e hcontent hrender)

theorem shownAlike (hp : j.ShowsPolicy p) (hq : j.ShowsPolicy q) : ShownAlike p q := by
  refine ⟨?_, ?_, ?_⟩
  · exact Json.uint64_eq hp.version hq.version
  · exact Json.str_eq hp.modPolicy hq.modPolicy
  · exact (member?_policy_eq_null_iff hp).symm.trans (member?_policy_eq_null_iff hq)

end ConfigPolicy

namespace Group

variable {g h : Group} {j : Json}

/-- Groups of the same version, under the same policy, with child groups of the same names, and with
values and policies of the same names that are alike. -/
structure ShownAlike (g h : Group) : Prop where
  version : g.version = h.version
  modPolicy : g.modPolicy = h.modPolicy
  groups : g.groups.names = h.groups.names
  values : ∀ name, Option.Rel (ConfigValue.ShownAlike name) (g.values.find? name)
    (h.values.find? name)
  policies : ∀ name, Option.Rel ConfigPolicy.ShownAlike (g.policies.find? name)
    (h.policies.find? name)

theorem shownAlike (hg : j.ShowsGroup g) (hh : j.ShowsGroup h) : ShownAlike g h := by
  obtain ⟨groups, hgroups, hnames⟩ := hg.groups
  obtain ⟨values, hvalues, hvalue⟩ := hg.values
  obtain ⟨policies, hpolicies, hpolicy⟩ := hg.policies
  obtain ⟨_, hgroups', hnames'⟩ := hh.groups
  obtain ⟨_, hvalues', hvalue'⟩ := hh.values
  obtain ⟨_, hpolicies', hpolicy'⟩ := hh.policies
  cases hgroups.symm.trans hgroups'
  cases hvalues.symm.trans hvalues'
  cases hpolicies.symm.trans hpolicies'
  refine ⟨?_, ?_, hnames.symm.trans hnames', fun name => ?_, fun name => ?_⟩
  · exact Json.uint64_eq hg.version hh.version
  · exact Json.str_eq hg.modPolicy hh.modPolicy
  · exact rel_of_rel (hvalue name) (hvalue' name) fun _ _ _ => ConfigValue.shownAlike
  · exact rel_of_rel (hpolicy name) (hpolicy' name) fun _ _ _ => ConfigPolicy.shownAlike

theorem not_showsGroup_null : ¬ Json.null.ShowsGroup g := fun h => nomatch h.version

end Group

namespace Config

/-- The group at a path of names from the root of the tree, if there is a tree. -/
def groupAt? (c : Config) (path : List String) : Option Group :=
  c.channelGroup.bind (·.at? path)

/-- Configurations of the same number, with trees or without, whose groups at each path are alike. -/
structure ShownAlike (c c' : Config) : Prop where
  sequence : c.sequence = c'.sequence
  channelGroup : c.channelGroup.isSome = c'.channelGroup.isSome
  groups : ∀ path, Option.Rel Group.ShownAlike (c.groupAt? path) (c'.groupAt? path)

variable {c c' : Config} {j : Json}

/-- The listing of a configuration without a tree is no listing of one with a tree. -/
theorem member?_channelGroup_eq_null_iff (h : j.ShowsConfig c) :
    j.member? "channel_group" = some .null ↔ c.channelGroup = none := by
  refine ⟨fun hnull => ?_, h.noGroup⟩
  cases hgroup : c.channelGroup with
  | none => rfl
  | some g =>
    obtain ⟨root, hroot, hpaths⟩ := h.groups g hgroup
    cases hnull.symm.trans hroot
    cases hpaths [] with
    | some hshows => exact absurd hshows Group.not_showsGroup_null

theorem shownAlike (hc : j.ShowsConfig c) (hc' : j.ShowsConfig c') : c.ShownAlike c' := by
  have hnone := (member?_channelGroup_eq_null_iff hc).symm.trans
    (member?_channelGroup_eq_null_iff hc')
  refine ⟨?_, ?_, fun path => ?_⟩
  · exact Json.uint64_eq hc.sequence hc'.sequence
  · rw [Bool.eq_iff_iff, Option.isSome_iff_ne_none, Option.isSome_iff_ne_none]
    exact not_congr hnone
  · rw [groupAt?, groupAt?]
    cases hgroup : c.channelGroup with
    | none =>
      rw [hnone.1 hgroup]
      exact .none
    | some g =>
      cases hgroup' : c'.channelGroup with
      | none =>
        rw [hnone.2 hgroup'] at hgroup
        cases hgroup
      | some h =>
        obtain ⟨root, hroot, hpaths⟩ := hc.groups g hgroup
        obtain ⟨root', hroot', hpaths'⟩ := hc'.groups h hgroup'
        cases hroot.symm.trans hroot'
        exact rel_of_rel (hpaths path) (hpaths' path) fun _ _ _ => Group.shownAlike

/-- Inspection lists every configuration down to its last entry. Two configurations with one listing
differ, if at all, in payloads that can be read and in what their policies say. -/
theorem toJson_hides_nothing : (∀ c : Config, c.toJson.ShowsConfig c) ∧
    ∀ c c' : Config, c.toJson = c'.toJson → c.ShownAlike c' := by
  refine ⟨shows_toJson, fun c c' h => ?_⟩
  exact shownAlike (h ▸ shows_toJson c) (shows_toJson c')

/-- A tree with a value of a known name, one of an unknown name, a policy that is absent and, in an
organization, a value that cannot be read. -/
def mixedConfig (consortium : Bytes) : Config where
  sequence := 3
  channelGroup := some {
    version := 2
    groups := .cons "Org1" trivial { values := .cons "MSP" trivial { content := [0xff] } .nil } .nil
    values := .cons "Consortium" trivial { content := consortium } <|
      .cons "Rate" (by decide) { content := [0xde, 0xad] } .nil
    policies := .cons "Admins" trivial { content := none } .nil }

/-- The name of a consortium, and the same with a field that no consortium has. -/
theorem toJson_mixedConfig : (mixedConfig [0x0a, 0x01, 0x43]).toJson =
    (mixedConfig [0x0a, 0x01, 0x43, 0x78, 0x01]).toJson := by
  have hplain : StandardValue.decode "Consortium" [0x0a, 0x01, 0x43] =
    .ok (.consortium { name := "C" }) := eq_ok_of_toOption (by decide +kernel)
  have hstray : StandardValue.decode "Consortium" [0x0a, 0x01, 0x43, 0x78, 0x01] =
    .ok (.consortium { name := "C" }) := eq_ok_of_toOption (by decide +kernel)
  simp only [mixedConfig, Config.toJson, Json.ofOption, Group.toJson_eq, SortedFrom.map,
    ConfigValue.toJson, hplain, hstray]

theorem toJson_hides_nothing_mixed :
    (mixedConfig [0x0a, 0x01, 0x43]).toJson =
      (mixedConfig [0x0a, 0x01, 0x43, 0x78, 0x01]).toJson ∧
    mixedConfig [0x0a, 0x01, 0x43] ≠ mixedConfig [0x0a, 0x01, 0x43, 0x78, 0x01] ∧
    (mixedConfig [0x0a, 0x01, 0x43]).ShownAlike (mixedConfig [0x0a, 0x01, 0x43, 0x78, 0x01]) ∧
    (mixedConfig [0x0a, 0x01, 0x43]).toJson.ShowsConfig (mixedConfig [0x0a, 0x01, 0x43]) :=
  ⟨toJson_mixedConfig, by decide +kernel, toJson_hides_nothing.2 _ _ toJson_mixedConfig,
    toJson_hides_nothing.1 _⟩

end Config

end ChannelConfig
