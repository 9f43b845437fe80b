import ChannelConfig.Proofs.Tree.Apply

/-! The versions in an update. `saidAt_delta` and `leafSaid_leaves` list what an update can say of a
group and of a leaf; from them `versionDiscipline_delta`: what is read stands in the old tree at that
version, what is read and written moves on by one version, what is only written is new and starts at
version 0. So a read set fits the tree it was made from, and no tree that an update of it leads to. -/

set_option autoImplicit false

namespace ChannelConfig

/-! ## The versions of a tree -/

namespace Group

mutual
/-- The versions of a group, of its leaves and of all groups below it. -/
def versions : Group → List UInt64
  | ⟨version, groups, values, policies, _⟩ =>
    version :: values.values.map Leaf.version ++ policies.values.map Leaf.version ++
      versionsMap groups

def versionsMap : {lo : Option String} → SortedFrom Group lo → List UInt64
  | _, .nil => []
  | _, .cons _ _ g rest => versions g ++ versionsMap rest
end

/-- Every version of the tree is below the bound. -/
def VersionsBelow (bound : Nat) (g : Group) : Prop := ∀ v ∈ g.versions, v.toNat < bound

instance (bound : Nat) (g : Group) : Decidable (g.VersionsBelow bound) :=
  List.decidableBAll (fun v : UInt64 => v.toNat < bound) g.versions

theorem mem_versionsMap {name : String} {g : Group} {v : UInt64} (hv : v ∈ g.versions) :
    {lo : Option String} → {m : SortedFrom Group lo} → m.find? name = some g → v ∈ versionsMap m
  | _, .nil, h => by cases h
  | _, .cons n _ child rest, h => by
    rw [versionsMap]
    by_cases hn : n = name
    · subst hn
      rw [SortedFrom.find?_cons_self] at h
      cases h
      exact List.mem_append_left _ hv
    · rw [SortedFrom.find?_cons_of_ne hn] at h
      exact List.mem_append_right _ (mem_versionsMap hv h)

theorem mem_versions_of_at? {g c : Group} {path : List String} {v : UInt64}
    (h : g.at? path = some c) (hv : v ∈ c.versions) : v ∈ g.versions := by
  induction path generalizing g with
  | nil =>
    cases h
    exact hv
  | cons name path ih =>
    rw [at?_cons] at h
    obtain ⟨child, hchild, hat⟩ := Option.bind_eq_some_iff.1 h
    obtain ⟨version, groups, values, policies, modPolicy⟩ := g
    rw [versions]
    exact List.mem_append_right _ (mem_versionsMap (ih hat) hchild)

theorem version_mem_versions (g : Group) : g.version ∈ g.versions := by
  cases g
  rw [versions]
  exact List.mem_cons_self

theorem version_mem_of_find? {α : Type} {m : NameMap (Leaf α)} {name : String} {l : Leaf α}
    (h : m.find? name = some l) : l.version ∈ m.values.map Leaf.version :=
  List.mem_map_of_mem (List.mem_map_of_mem ((SortedFrom.find?_eq_some_iff m).1 h))

theorem value_mem_versions {g : Group} {name : String} {v : ConfigValue}
    (h : g.values.find? name = some v) : v.version ∈ g.versions := by
  cases g
  rw [versions]
  exact List.mem_append_left _ (List.mem_append_left _
    (List.mem_cons_of_mem _ (version_mem_of_find? h)))

theorem policy_mem_versions {g : Group} {name : String} {p : ConfigPolicy}
    (h : g.policies.find? name = some p) : p.version ∈ g.versions := by
  cases g
  rw [versions]
  exact List.mem_append_left _ (List.mem_append_right _ (version_mem_of_find? h))

end Group

/-- The next version, where it does not start over. -/
theorem toNat_succ_version {v : UInt64} (h : v.toNat < UInt64.size - 1) :
    (v + 1).toNat = v.toNat + 1 := by
  have hsize : UInt64.size = 18446744073709551616 := rfl
  rw [UInt64.toNat_add, UInt64.toNat_one]
  omega

/-! ## What an update can say -/

/-- What an update says of a leaf that the trees have or lack. -/
inductive LeafSaid {α : Type} (blank : α) (current updated : Option (Leaf α)) :
    (read write : Option (Leaf α)) → Prop
  | same {c u : Leaf α} (hc : current = some c) (hu : updated = some u) (h : c.SameContent u) :
    LeafSaid blank current updated (some c) (some c)
  | changed {c u : Leaf α} (hc : current = some c) (hu : updated = some u)
    (h : ¬ c.SameContent u) : LeafSaid blank current updated
      (some { version := c.version, content := blank }) (some { u with version := c.version + 1 })
  | added {u : Leaf α} (hc : current = none) (hu : updated = some u) :
    LeafSaid blank current updated none (some u.fresh)
  | nothing : LeafSaid blank current updated none none

theorem leafSaid_leaves {α : Type} [DecidableEq α] (blank : α) (current updated : NameMap (Leaf α))
    (name : String) : LeafSaid blank (current.find? name) (updated.find? name)
      ((readLeaves blank current updated).find? name)
      ((writeLeaves current updated).find? name) := by
  rw [readLeaves, SortedFrom.find?_filterMap, find?_writeLeaves]
  cases hu : updated.find? name with
  | none => cases current.find? name <;> exact .nothing
  | some u =>
    cases hc : current.find? name with
    | none => exact .added rfl rfl
    | some c =>
      by_cases h : c.SameContent u
      · simp only [Option.bind_some, Option.map_some, if_pos h]
        exact .same rfl rfl h
      · simp only [Option.bind_some, Option.map_some, if_neg h]
        exact .changed rfl rfl h

namespace Group

/-- What an update says of the group at a path. -/
inductive SaidAt (current updated : Group) (path : List String) :
    (read write : Option Group) → Prop
  | changed {c u : Group} (hc : current.at? path = some c) (hu : updated.at? path = some u) :
    SaidAt current updated path (some (c.delta u).read) (some (c.delta u).write)
  | added {u : Group} (hc : current.at? path = none) (hu : updated.at? path = some u) :
    SaidAt current updated path none (some u.fresh)
  | nothing : SaidAt current updated path none none

theorem saidAt_cons {current updated c u : Group} {name : String} {path : List String}
    {read write : Option Group} (hc : current.groups.find? name = some c)
    (hu : updated.groups.find? name = some u) (h : SaidAt c u path read write) :
    SaidAt current updated (name :: path) read write := by
  cases h with
  | changed hc' hu' =>
    exact .changed ((at?_cons_of_some hc).trans hc') ((at?_cons_of_some hu).trans hu')
  | added hc' hu' => exact .added ((at?_cons_of_some hc).trans hc') ((at?_cons_of_some hu).trans hu')
  | nothing => exact .nothing

theorem saidAt_delta (current updated : Group) (path : List String) :
    SaidAt current updated path ((current.delta updated).read.at? path)
      ((current.delta updated).write.at? path) := by
  induction path generalizing current updated with
  | nil => exact .changed rfl rfl
  | cons name path ih =>
    rw [at?_cons, find?_groups_read_delta, at?_cons, find?_groups_write_delta]
    cases hu : updated.groups.find? name with
    | none => cases current.groups.find? name <;> exact .nothing
    | some u =>
      cases hc : current.groups.find? name with
      | none =>
        -- below a new group everything is new
        simp only [Option.bind_none, Option.bind_some, at?_fresh]
        cases hat : u.at? path with
        | none => exact .nothing
        | some u' =>
          exact .added (by rw [at?_cons, hc]; rfl) ((at?_cons_of_some hu).trans hat)
      | some c =>
        cases hd : c.diff? u with
        | none =>
          simp only [Option.bind_some, hd, Option.map_none, Option.bind_none]
          exact .nothing
        | some d =>
          cases eq_delta_of_diff? hd
          simp only [Option.bind_some, hd, Option.map_some]
          exact saidAt_cons hc hu (ih c u)

/-- The value of a name in the group at a path. -/
def valueAt? (g : Group) (path : List String) (name : String) : Option ConfigValue :=
  (g.at? path).bind (·.values.find? name)

/-- The policy of a name in the group at a path. -/
def policyAt? (g : Group) (path : List String) (name : String) : Option ConfigPolicy :=
  (g.at? path).bind (·.policies.find? name)

/-- What is said of a leaf follows from what is said of its group. -/
theorem SaidAt.leafSaid {α : Type} [DecidableEq α] {blank : α} {leaves : Group → NameMap (Leaf α)}
    (hread : ∀ c u, leaves (delta c u).read = readLeaves blank (leaves c) (leaves u))
    (hwrite : ∀ c u, leaves (delta c u).write = writeLeaves (leaves c) (leaves u))
    (hfresh : ∀ u name, (leaves (fresh u)).find? name = ((leaves u).find? name).map Leaf.fresh)
    {current updated : Group} {path : List String} {read write : Option Group}
    (h : SaidAt current updated path read write) (name : String) :
    LeafSaid blank ((current.at? path).bind fun g => (leaves g).find? name)
      ((updated.at? path).bind fun g => (leaves g).find? name)
      (read.bind fun g => (leaves g).find? name) (write.bind fun g => (leaves g).find? name) := by
  cases h with
  | changed hc hu =>
    rw [hc, hu]
    simp only [Option.bind_some, hread, hwrite]
    exact leafSaid_leaves ..
  | added hc hu =>
    rw [hc, hu]
    simp only [Option.bind_some, hfresh]
    cases (leaves _).find? name with
    | none => exact .nothing
    | some l => exact .added rfl rfl
  | nothing => exact .nothing

theorem valueSaid_delta (current updated : Group) (path : List String) (name : String) :
    LeafSaid [] (current.valueAt? path name) (updated.valueAt? path name)
      ((current.delta updated).read.valueAt? path name)
      ((current.delta updated).write.valueAt? path name) :=
  (saidAt_delta current updated path).leafSaid (fun _ _ => rfl) (fun _ _ => rfl)
    find?_values_fresh name

theorem policySaid_delta (current updated : Group) (path : List String) (name : String) :
    LeafSaid none (current.policyAt? path name) (updated.policyAt? path name)
      ((current.delta updated).read.policyAt? path name)
      ((current.delta updated).write.policyAt? path name) :=
  (saidAt_delta current updated path).leafSaid (fun _ _ => rfl) (fun _ _ => rfl)
    find?_policies_fresh name

end Group

/-! ## The rules -/

/-- The rules of versions for leaves of one kind. -/
structure LeafVersions {α : Type} (blank : α)
    (current updated read write : List String → String → Option (Leaf α)) : Prop where
  /-- What is read is also written, and stands in the old tree at that version. -/
  seen : ∀ path name r, read path name = some r →
    (∃ w, write path name = some w) ∧ ∃ c, current path name = some c ∧ c.version = r.version
  /-- What is read and written either changes, with its version, or is repeated. -/
  moved : ∀ path name r w, read path name = some r → write path name = some w →
    ∃ c u, current path name = some c ∧ updated path name = some u ∧
      (¬ c.SameContent u ∧ r = { version := c.version, content := blank } ∧ w.SameContent u ∧
          w.version.toNat = c.version.toNat + 1 ∨
        c.SameContent u ∧ r = c ∧ w = c)
  /-- What is written only is new. -/
  added : ∀ path name w, write path name = some w → read path name = none →
    current path name = none ∧ w.version = 0 ∧
      ∃ u, updated path name = some u ∧ w.SameContent u

theorem LeafVersions.of_leafSaid {α : Type} {blank : α}
    {current updated read write : List String → String → Option (Leaf α)}
    (hsaid : ∀ path name, LeafSaid blank (current path name) (updated path name) (read path name)
      (write path name))
    (hbound : ∀ path name c, current path name = some c → c.version.toNat < UInt64.size - 1) :
    LeafVersions blank current updated read write where
  seen path name r hr := by
    have h := hsaid path name
    rw [hr] at h
    generalize write path name = w at h ⊢
    cases h with
    | same hc => exact ⟨⟨_, rfl⟩, _, hc, rfl⟩
    | changed hc => exact ⟨⟨_, rfl⟩, _, hc, rfl⟩
  moved path name r w hr hw := by
    have h := hsaid path name
    rw [hr, hw] at h
    cases h with
    | same hc hu hsame => exact ⟨_, _, hc, hu, .inr ⟨hsame, rfl, rfl⟩⟩
    | changed hc hu hne =>
      exact ⟨_, _, hc, hu, .inl ⟨hne, rfl, ⟨rfl, rfl⟩, toNat_succ_version (hbound _ _ _ hc)⟩⟩
  added path name w hw hr := by
    have h := hsaid path name
    rw [hr, hw] at h
    cases h with
    | added hc hu => exact ⟨hc, rfl, _, hu, rfl, rfl⟩

namespace Group

/-- The rules of versions, for all entries of the two sets. -/
structure VersionDiscipline (current updated read write : Group) : Prop where
  /-- A group that is read is also written, and stands in the old tree at that version. -/
  seen : ∀ path r, read.at? path = some r →
    (∃ w, write.at? path = some w) ∧ ∃ c, current.at? path = some c ∧ c.version = r.version
  /-- A group that is read and written moves on by one version. -/
  moved : ∀ path r w, read.at? path = some r → write.at? path = some w →
    w.version.toNat = r.version.toNat + 1 ∧ r.modPolicy = "" ∧
      ∃ u, updated.at? path = some u ∧ w.modPolicy = u.modPolicy
  /-- A group that is written only is new, and all in it is. -/
  added : ∀ path w, write.at? path = some w → read.at? path = none →
    current.at? path = none ∧ w.version = 0 ∧
      ∃ u, updated.at? path = some u ∧ w.SameContent u
  values : LeafVersions [] current.valueAt? updated.valueAt? read.valueAt? write.valueAt?
  policies : LeafVersions none current.policyAt? updated.policyAt? read.policyAt? write.policyAt?
  root : read.version = current.version ∧ write.version.toNat = current.version.toNat + 1

theorem versionDiscipline_delta {current : Group} (hbound : current.VersionsBelow (UInt64.size - 1))
    (updated : Group) : VersionDiscipline current updated (current.delta updated).read
      (current.delta updated).write where
  seen path r hr := by
    have h := saidAt_delta current updated path
    rw [hr] at h
    generalize (current.delta updated).write.at? path = w at h ⊢
    cases h with
    | changed hc => exact ⟨⟨_, rfl⟩, _, hc, rfl⟩
  moved path r w hr hw := by
    have h := saidAt_delta current updated path
    rw [hr, hw] at h
    cases h with
    | changed hc hu =>
      exact ⟨toNat_succ_version (hbound _ (mem_versions_of_at? hc (version_mem_versions _))), rfl, _,
        hu, rfl⟩
  added path w hw hr := by
    have h := saidAt_delta current updated path
    rw [hr, hw] at h
    cases h with
    | added hc hu => exact ⟨hc, version_fresh _, _, hu, fresh_sameContent _⟩
  values := .of_leafSaid (valueSaid_delta current updated) fun path name c hc => by
    obtain ⟨g, hg, hc⟩ := Option.bind_eq_some_iff.1 hc
    exact hbound _ (mem_versions_of_at? hg (value_mem_versions hc))
  policies := .of_leafSaid (policySaid_delta current updated) fun path name c hc => by
    obtain ⟨g, hg, hc⟩ := Option.bind_eq_some_iff.1 hc
    exact hbound _ (mem_versions_of_at? hg (policy_mem_versions hc))
  root := ⟨rfl, toNat_succ_version (hbound _ (version_mem_versions current))⟩

/-! ## Read sets and trees -/

/-- The tree has every entry that was read, at the version it was read at. -/
structure Fits (read tree : Group) : Prop where
  groups : ∀ path r, read.at? path = some r → ∃ g, tree.at? path = some g ∧ g.version = r.version
  values : ∀ path name r, read.valueAt? path name = some r →
    ∃ v, tree.valueAt? path name = some v ∧ v.version = r.version
  policies : ∀ path name r, read.policyAt? path name = some r →
    ∃ p, tree.policyAt? path name = some p ∧ p.version = r.version

theorem VersionDiscipline.fits {current updated read write : Group}
    (h : VersionDiscipline current updated read write) : read.Fits current where
  groups path r hr := (h.seen path r hr).2
  values path name r hr := (h.values.seen path name r hr).2
  policies path name r hr := (h.policies.seen path name r hr).2

theorem Fits.version_eq {read tree : Group} (h : read.Fits tree) : tree.version = read.version := by
  obtain ⟨g, hg, hv⟩ := h.groups [] read rfl
  cases hg
  exact hv

theorem version_apply (current written : Group) :
    (current.apply written).version = written.version := by
  cases current
  rw [apply]

/-- An update keeps to the rules of versions. What it reads fits the tree that it was made for, but
once it is applied nothing that was read from the old tree fits any longer. -/
theorem updateBetween_versions {current updated : Group} {d : ConfigUpdate}
    (hbound : current.VersionsBelow (UInt64.size - 1))
    (h : updateBetween current updated = .ok d) :
    ∃ read write, d.readSet = some read ∧ d.writeSet = some write ∧
      VersionDiscipline current updated read write ∧ read.Fits current ∧
      ∀ updated' d' read', updateBetween current updated' = .ok d' → d'.readSet = some read' →
        ¬ read'.Fits (current.apply write) := by
  obtain ⟨-, rfl⟩ := updateBetween_eq_ok_iff.1 h
  have hrules := versionDiscipline_delta hbound updated
  refine ⟨_, _, rfl, rfl, hrules, hrules.fits, fun updated' d' read' h' hread' hfits => ?_⟩
  obtain ⟨-, rfl⟩ := updateBetween_eq_ok_iff.1 h'
  cases hread'
  have hroot := hfits.version_eq
  rw [version_apply, (versionDiscipline_delta hbound updated').root.1] at hroot
  have hnext := hrules.root.2
  rw [hroot] at hnext
  omega

/-- A tree with a past: every entry has changed before. -/
def agedTree : Group := setGroup { version := 4, modPolicy := "Admins" } "Org1"
  { version := 9
    values := .ofList [("A", { version := 2, content := [1] }), ("B", { version := 3, content := [7] })] }

/-- One value of it changes, one value and one group come, under versions of their own. -/
def agedTreeWanted : Group := setGroup (setGroup { modPolicy := "Admins" } "Org1"
  { values := .ofList [("A", { version := 6, content := [2] }), ("B", { content := [7] }),
      ("C", { version := 5, content := [3] })] }) "Org2" { version := 8 }

def agedTreeRead : Group := setGroup { version := 4 } "Org1"
  { version := 9
    values := .ofList [("A", { version := 2, content := [] }), ("B", { version := 3, content := [7] })] }

def agedTreeWritten : Group := setGroup (setGroup { version := 5, modPolicy := "Admins" } "Org1"
  { version := 10
    values := .ofList [("A", { version := 3, content := [2] }), ("B", { version := 3, content := [7] }),
      ("C", { content := [3] })] }) "Org2" {}

theorem updateBetween_versions_aged_tree :
    agedTree.VersionsBelow (UInt64.size - 1) ∧
    updateBetween agedTree agedTreeWanted =
      .ok { readSet := some agedTreeRead, writeSet := some agedTreeWritten } ∧
    ∃ read write, some agedTreeRead = some read ∧ some agedTreeWritten = some write ∧
      VersionDiscipline agedTree agedTreeWanted read write ∧ read.Fits agedTree ∧
      ∀ updated' d' read', updateBetween agedTree updated' = .ok d' → d'.readSet = some read' →
        ¬ read'.Fits (agedTree.apply write) := by
  have hbound : agedTree.VersionsBelow (UInt64.size - 1) := by decide
  have h : updateBetween agedTree agedTreeWanted =
      .ok { readSet := some agedTreeRead, writeSet := some agedTreeWritten } := rfl
  exact ⟨hbound, h, updateBetween_versions hbound h⟩

end Group

end ChannelConfig
