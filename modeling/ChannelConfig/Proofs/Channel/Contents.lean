import ChannelConfig.Channel.Build
import ChannelConfig.Proofs.Result
import ChannelConfig.Proofs.Tree.Content

/-! What the builders put into a group. `Group.Made` says which policies and which values, and under
whose control; `Group.Lists` says which child groups a list of organizations leaves. Every way to put
an entry into a group has its step, and a lemma for each builder takes the steps together. -/

set_option autoImplicit false

namespace ChannelConfig

/-! ## Values and policies -/

/-- The policy that controls a value: the admins, unless the ordering service's must agree. -/
def valueGovernor (key : String) : String :=
  if key = "OrdererAddresses" ∨ key = "ChannelCreationPolicy" then "/Channel/Orderer/Admins"
  else "Admins"

/-- The value as it stands in a new tree. -/
def StandardValue.leaf (v : StandardValue) : ConfigValue where
  content := v.encode
  modPolicy := valueGovernor v.key

/-- The value alone if the condition holds, and none otherwise. -/
def valueIf (p : Prop) [Decidable p] (v : StandardValue) : List StandardValue := if p then [v] else []

namespace Group

/-- A new group with these policies and values; of several values of one name the last counts. -/
structure Made (g : Group) (governor : String) (policyNames : List String)
    (vs : List StandardValue) : Prop where
  version : g.version = 0
  modPolicy : g.modPolicy = governor
  policies : ∀ name p, g.policies.find? name = some p → p.version = 0 ∧ p.modPolicy = governor
  names : ∀ name, g.policies.contains name = true ↔ name ∈ policyNames
  values : ∀ key, g.values.find? key =
    (vs.reverse.find? fun v => v.key = key).map StandardValue.leaf

variable {g g' child : Group} {governor : String} {policyNames : List String}
  {vs : List StandardValue}

theorem made_governedBy (governor : String) : (governedBy governor).Made governor [] [] := by
  refine ⟨rfl, rfl, fun name p hp => ?_, fun name => ?_, fun key => rfl⟩
  · cases hp
  · rw [SortedFrom.contains_iff]
    exact ⟨fun ⟨_, hp⟩ => (nomatch hp), fun h => (nomatch h)⟩

theorem contains_setPolicy {name : String} {policy : AccessPolicy} {key : String} :
    (g.setPolicy name policy governor).policies.contains key = true ↔
      key = name ∨ g.policies.contains key = true := by
  rw [setPolicy, SortedFrom.contains, SortedFrom.find?_insert]
  by_cases hname : name = key
  · simp [hname]
  · rw [if_neg hname, SortedFrom.contains, or_iff_right (Ne.symm hname)]

theorem Made.setPolicy (h : g.Made governor policyNames vs) (name : String)
    (policy : AccessPolicy) :
    (g.setPolicy name policy governor).Made governor (name :: policyNames) vs := by
  refine ⟨h.version, h.modPolicy, fun key p hp => ?_, fun key => ?_, h.values⟩
  · rw [Group.setPolicy, SortedFrom.find?_insert] at hp
    split at hp
    · cases hp
      exact ⟨rfl, rfl⟩
    · exact h.policies key p hp
  · rw [contains_setPolicy, h.names, List.mem_cons]

theorem Made.addTo (h : g.Made governor policyNames vs) (v : StandardValue) {modPolicy : String}
    (hmod : valueGovernor v.key = modPolicy) :
    (v.addTo g modPolicy).Made governor policyNames (vs ++ [v]) := by
  refine ⟨h.version, h.modPolicy, h.policies, h.names, fun key => ?_⟩
  rw [StandardValue.addTo, setValue, SortedFrom.find?_insert, List.reverse_append,
    List.reverse_singleton, List.singleton_append, List.find?_cons]
  by_cases hkey : v.key = key
  · have hleaf : v.leaf = { content := v.encode, modPolicy } := by rw [StandardValue.leaf, hmod]
    simp [hkey, hleaf]
  · simp [hkey, h.values key]

theorem Made.addToUnless {p : Prop} [Decidable p] (h : g.Made governor policyNames vs)
    (v : StandardValue) {modPolicy : String} (hmod : valueGovernor v.key = modPolicy) :
    (if p then g else v.addTo g modPolicy).Made governor policyNames (vs ++ valueIf (¬ p) v) := by
  rw [valueIf]
  by_cases hp : p
  · rwa [if_pos hp, if_neg (not_not_intro hp), List.append_nil]
  · rw [if_neg hp, if_pos hp]
    exact h.addTo v hmod

theorem Made.withValue (h : g.Made governor policyNames vs) (v : StandardValue)
    (hmod : valueGovernor v.key = adminsPolicy) :
    (g.withValue v).Made governor policyNames (vs ++ [v]) :=
  h.addTo v hmod

theorem Made.withValueIf {p : Prop} [Decidable p] (h : g.Made governor policyNames vs)
    (v : StandardValue) (hmod : valueGovernor v.key = adminsPolicy) :
    (g.withValueIf p v).Made governor policyNames (vs ++ valueIf p v) := by
  rw [Group.withValueIf, valueIf]
  split
  · exact h.withValue v hmod
  · rwa [List.append_nil]

theorem Made.setGroup (h : g.Made governor policyNames vs) (name : String) (child : Group) :
    (g.setGroup name child).Made governor policyNames vs :=
  ⟨h.version, h.modPolicy, h.policies, h.names, h.values⟩

theorem Made.congr {names' : List String} (h : g.Made governor policyNames vs)
    (hnames : ∀ name, name ∈ policyNames ↔ name ∈ names') : g.Made governor names' vs :=
  ⟨h.version, h.modPolicy, h.policies, fun name => (h.names name).trans (hnames name), h.values⟩

theorem Made.of_find?_values {key : String} {leaf : ConfigValue}
    (h : g.Made governor policyNames vs) (hleaf : g.values.find? key = some leaf) :
    leaf.version = 0 ∧ leaf.modPolicy = valueGovernor key := by
  rw [h.values, Option.map_eq_some_iff] at hleaf
  obtain ⟨v, hv, rfl⟩ := hleaf
  have hkey : v.key = key := by simpa using List.find?_some hv
  exact ⟨rfl, congrArg valueGovernor hkey⟩

end Group

/-! ## Policies of a section -/

theorem decides_requirePolicies {V : Type} (policies : NameMap V) {required : List String}
    (hne : required ≠ []) : (requirePolicies policies required).Decides
      (∀ name ∈ required, policies.contains name = true) := by
  rw [requirePolicies]
  split
  · next hempty =>
    refine Result.decides_error .validation fun hall => ?_
    obtain ⟨name, rest, rfl⟩ := List.exists_cons_of_ne_nil hne
    obtain ⟨v, hv⟩ := policies.contains_iff.1 (hall name (List.mem_cons_self ..))
    rw [policies.isEmpty_iff.1 hempty name] at hv
    cases hv
  · split
    · next name hfind =>
      refine Result.decides_error .validation fun hall => ?_
      have hmissing := List.find?_some hfind
      rw [hall name (List.mem_of_find?_eq_some hfind)] at hmissing
      cases hmissing
    · next hfind =>
      refine Result.decides_ok () fun name hname => ?_
      simpa using List.find?_eq_none.1 hfind name hname

theorem contains_of_requirePolicies {V : Type} {policies : NameMap V} {required : List String}
    {name : String} (h : requirePolicies policies required = .ok ()) (hname : name ∈ required) :
    policies.contains name = true :=
  (decides_requirePolicies policies (List.ne_nil_of_mem hname)).of_ok h name hname

namespace Group

variable {g g' : Group} {governor : String} {policyNames : List String} {vs : List StandardValue}

theorem made_compilePolicies (h : g.Made governor policyNames vs) {ds : List (String × PolicyDef)}
    (hcompile : g.compilePolicies governor ds = (g', .ok ())) :
    g'.Made governor (ds.map (·.1) ++ policyNames) vs := by
  induction ds generalizing g policyNames with
  | nil =>
    cases hcompile
    exact h
  | cons e ds ih =>
    obtain ⟨name, d⟩ := e
    rw [compilePolicies] at hcompile
    split at hcompile
    · next policy _ =>
      refine (ih (h.setPolicy name policy) hcompile).congr fun key => ?_
      rw [List.map_cons, List.cons_append, List.mem_append, List.mem_cons, List.mem_cons,
        List.mem_append, or_left_comm]
    · cases hcompile

theorem ofPolicies_eq (policies : NameMap PolicyDef) (required : List String) :
    ofPolicies policies required = (requirePolicies policies required >>= fun _ =>
      let compiled := (governedBy adminsPolicy).compilePolicies adminsPolicy policies.toList
      compiled.2.map fun _ => compiled.1) := by
  rw [ofPolicies, addPolicies]
  cases requirePolicies policies required with
  | error e => rfl
  | ok u =>
    simp only [bind, Except.bind]
    obtain ⟨g, result⟩ := (governedBy adminsPolicy).compilePolicies adminsPolicy policies.toList
    cases result <;> rfl

theorem ofPolicies_eq_ok {policies : NameMap PolicyDef} {required : List String} {g : Group}
    (h : ofPolicies policies required = .ok g) : requirePolicies policies required = .ok () ∧
      (governedBy adminsPolicy).compilePolicies adminsPolicy policies.toList = (g, .ok ()) := by
  rw [ofPolicies_eq] at h
  obtain ⟨⟨⟩, hrequired, h⟩ := exists_of_bind_eq_ok h
  obtain ⟨⟨⟩, hcompiled, hg⟩ := exists_of_map_eq_ok h
  exact ⟨hrequired, Prod.ext hg hcompiled⟩

/-- All policies of a section stand in its group, and the required ones are among them. -/
theorem made_ofPolicies {policies : NameMap PolicyDef} {required : List String}
    (h : ofPolicies policies required = .ok g) : g.Made adminsPolicy policies.names [] ∧
      ∀ name ∈ required, name ∈ policies.names := by
  obtain ⟨hrequired, hcompile⟩ := ofPolicies_eq_ok h
  refine ⟨?_, fun name hname => ?_⟩
  · refine (made_compilePolicies (made_governedBy adminsPolicy) hcompile).congr fun name => ?_
    rw [List.append_nil, SortedFrom.names]
  · rw [SortedFrom.mem_names_iff, ← SortedFrom.contains_iff]
    exact contains_of_requirePolicies hrequired hname

end Group

/-! ## Child groups of a list -/

/-- No later organization of the list has the name of this one. -/
def Organization.LastIn (o : Organization) (os : List Organization) : Prop :=
  ∃ before after, os = before ++ o :: after ∧ ∀ o' ∈ after, o'.name ≠ o.name

namespace Organization

variable {o first : Organization} {os : List Organization}

theorem LastIn.mem (h : o.LastIn os) : o ∈ os := by
  obtain ⟨before, after, rfl, -⟩ := h
  exact List.mem_append_right before (List.mem_cons_self ..)

theorem lastIn_cons_iff : o.LastIn (first :: os) ↔
    o.LastIn os ∨ (o = first ∧ ∀ o' ∈ os, o'.name ≠ o.name) := by
  constructor
  · rintro ⟨before, after, hsplit, hafter⟩
    cases before with
    | nil =>
      cases hsplit
      exact .inr ⟨rfl, hafter⟩
    | cons b before =>
      rw [List.cons_append, List.cons.injEq] at hsplit
      exact .inl ⟨before, after, hsplit.2, hafter⟩
  · rintro (⟨before, after, rfl, hafter⟩ | ⟨rfl, hafter⟩)
    · exact ⟨first :: before, after, rfl, hafter⟩
    · exact ⟨[], os, rfl, hafter⟩

theorem exists_lastIn {name : String} (h : ∃ o ∈ os, o.name = name) :
    ∃ o : Organization, o.LastIn os ∧ o.name = name := by
  induction os with
  | nil => exact absurd h (by simp)
  | cons first os ih =>
    by_cases hlater : ∃ o ∈ os, o.name = name
    · obtain ⟨o, ho, hname⟩ := ih hlater
      exact ⟨o, lastIn_cons_iff.2 (.inl ho), hname⟩
    · obtain ⟨o, hmem, rfl⟩ := h
      have hfirst : o = first := by
        rcases List.mem_cons.1 hmem with rfl | hmem
        · rfl
        · exact absurd ⟨o, hmem, rfl⟩ hlater
      refine ⟨o, lastIn_cons_iff.2 (.inr ⟨hfirst, fun o' ho' hname => ?_⟩), rfl⟩
      exact hlater ⟨o', ho', hname⟩

end Organization

namespace Group

/-- The child groups have the names of the organizations, and `P` holds of the group of a name and
of the last organization of that name. -/
structure Lists (g : Group) (os : List Organization) (P : Organization → Group → Prop) : Prop where
  names : ∀ name, g.groups.contains name = true ↔ ∃ o ∈ os, o.name = name
  last : ∀ o, o.LastIn os → ∃ child, g.groups.find? o.name = some child ∧ P o child

theorem Lists.imp {g : Group} {os : List Organization} {P Q : Organization → Group → Prop}
    (h : g.Lists os P) (hPQ : ∀ o child, P o child → Q o child) : g.Lists os Q := by
  refine ⟨h.names, fun o ho => ?_⟩
  obtain ⟨child, hchild, hP⟩ := h.last o ho
  exact ⟨child, hchild, hPQ o child hP⟩

section

variable {place : String → Place} {build : Organization → Result Group} {os : List Organization}
  {g g' : Group}

theorem withOrganizations_ind {P : Group → Prop}
    (hset : ∀ g o child, P g → build o = .ok child → P (g.setGroup o.name child)) (hg : P g)
    (h : g.withOrganizations place build os = .ok g') : P g' := by
  induction os generalizing g with
  | nil =>
    cases h
    exact hg
  | cons o os ih =>
    obtain ⟨child, hchild, h⟩ := exists_of_bind_eq_ok h
    exact ih (hset g o child hg (eq_ok_of_within hchild)) h

theorem find?_groups_withOrganizations (h : g.withOrganizations place build os = .ok g') :
    (∀ o, o.LastIn os → ∃ child, g'.groups.find? o.name = some child ∧ build o = .ok child) ∧
      ∀ name, (∀ o ∈ os, o.name ≠ name) → g'.groups.find? name = g.groups.find? name := by
  induction os generalizing g with
  | nil =>
    cases h
    exact ⟨fun o ho => absurd ho.mem (by simp), fun name _ => rfl⟩
  | cons first os ih =>
    obtain ⟨child, hchild, h⟩ := exists_of_bind_eq_ok h
    obtain ⟨hlast, hothers⟩ := ih h
    refine ⟨fun o ho => ?_, fun name hname => ?_⟩
    · rcases Organization.lastIn_cons_iff.1 ho with ho | ⟨rfl, hafter⟩
      · exact hlast o ho
      · refine ⟨child, ?_, eq_ok_of_within hchild⟩
        rw [hothers o.name hafter, find?_groups_setGroup, if_pos rfl]
    · rw [List.forall_mem_cons] at hname
      rw [hothers name hname.2, find?_groups_setGroup, if_neg hname.1]

theorem lists_withOrganizations (hg : ∀ name, g.groups.find? name = none)
    (h : g.withOrganizations place build os = .ok g') :
    g'.Lists os fun o child => build o = .ok child := by
  obtain ⟨hlast, hothers⟩ := find?_groups_withOrganizations h
  refine ⟨fun name => ⟨fun hname => ?_, fun hname => ?_⟩, hlast⟩
  · refine Classical.byContradiction fun hnone => ?_
    rw [SortedFrom.contains, hothers name fun o ho hname => hnone ⟨o, ho, hname⟩, hg] at hname
    cases hname
  · obtain ⟨o, ho, rfl⟩ := Organization.exists_lastIn hname
    obtain ⟨child, hchild, -⟩ := hlast o ho
    exact (SortedFrom.contains_iff _).2 ⟨child, hchild⟩

end

end Group

end ChannelConfig
