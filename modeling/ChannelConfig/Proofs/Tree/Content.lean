import ChannelConfig.Proofs.Tree.Group
import ChannelConfig.Tree.Diff
import ChannelConfig.Tree.Edit

/-! Trees apart from their versions. `SameContent` is equality once every version is 0;
`sameContent_iff` takes it apart level by level, `SameContent.at?` carries it along a path, and
`sameContent_iff_at?` says it of all paths at once. -/

set_option autoImplicit false

namespace ChannelConfig

/-! ## Leaves -/

namespace Leaf

variable {α : Type}

def fresh (l : Leaf α) : Leaf α := { l with version := 0 }

theorem fresh_eq_iff {a b : Leaf α} : a.fresh = b.fresh ↔ a.SameContent b := by
  simp [fresh, SameContent]

end Leaf

/-- The same names with the same leaves, apart from versions. -/
def SameLeaves {α : Type} (m n : NameMap (Leaf α)) : Prop :=
  ∀ name, (m.find? name).map Leaf.fresh = (n.find? name).map Leaf.fresh

/-- A function of the content of leaves takes leaves of the same content to the same. -/
theorem SameLeaves.map_eq {α β : Type} {m n : NameMap (Leaf α)} (h : SameLeaves m n) (name : String)
    {f : Leaf α → β} (hf : ∀ u v, u.SameContent v → f u = f v) :
    (m.find? name).map f = (n.find? name).map f := by
  have hname := h name
  cases hm : m.find? name with
  | none =>
    rw [hm, Option.map_none, eq_comm, Option.map_eq_none_iff] at hname
    rw [hname]
  | some u =>
    rw [hm, Option.map_some, eq_comm, Option.map_eq_some_iff] at hname
    obtain ⟨v, hn, hvu⟩ := hname
    rw [hn]
    exact congrArg some (hf u v (Leaf.fresh_eq_iff.1 hvu.symm))

namespace Group

/-! ## Trees without versions -/

@[simp] theorem version_fresh (g : Group) : g.fresh.version = 0 := by
  cases g
  rfl

@[simp] theorem modPolicy_fresh (g : Group) : g.fresh.modPolicy = g.modPolicy := by
  cases g
  rfl

theorem find?_freshMap (key : String) : {lo : Option String} → (m : SortedFrom Group lo) →
    (freshMap m).find? key = (m.find? key).map fresh
  | _, .nil => rfl
  | _, .cons name _ g rest => by
    rw [freshMap]
    by_cases h : name = key
    · subst h
      rw [SortedFrom.find?_cons_self, SortedFrom.find?_cons_self]
      rfl
    · rw [SortedFrom.find?_cons_of_ne h, SortedFrom.find?_cons_of_ne h, find?_freshMap key rest]

@[simp] theorem find?_groups_fresh (g : Group) (key : String) :
    g.fresh.groups.find? key = (g.groups.find? key).map fresh := by
  cases g
  exact find?_freshMap key _

@[simp] theorem find?_values_fresh (g : Group) (key : String) :
    g.fresh.values.find? key = (g.values.find? key).map Leaf.fresh := by
  cases g
  exact SortedFrom.find?_map _ _ _

@[simp] theorem find?_policies_fresh (g : Group) (key : String) :
    g.fresh.policies.find? key = (g.policies.find? key).map Leaf.fresh := by
  cases g
  exact SortedFrom.find?_map _ _ _

/-- Equality of trees apart from their versions. -/
def SameContent (a b : Group) : Prop := a.fresh = b.fresh

theorem SameContent.refl (g : Group) : g.SameContent g := rfl

theorem SameContent.symm {a b : Group} (h : a.SameContent b) : b.SameContent a := Eq.symm h

theorem SameContent.trans {a b c : Group} (hab : a.SameContent b) (hbc : b.SameContent c) :
    a.SameContent c := Eq.trans hab hbc

/-- Trees have the same content if they agree at the root and their child groups do in turn. -/
theorem sameContent_iff {a b : Group} : a.SameContent b ↔
    a.modPolicy = b.modPolicy ∧ SameLeaves a.values b.values ∧ SameLeaves a.policies b.policies ∧
      ∀ name, (a.groups.find? name).map fresh = (b.groups.find? name).map fresh := by
  constructor
  · intro h
    have hm := congrArg modPolicy h
    rw [modPolicy_fresh, modPolicy_fresh] at hm
    refine ⟨hm, fun name => ?_, fun name => ?_, fun name => ?_⟩
    · rw [← find?_values_fresh, ← find?_values_fresh, h]
    · rw [← find?_policies_fresh, ← find?_policies_fresh, h]
    · rw [← find?_groups_fresh, ← find?_groups_fresh, h]
  · rintro ⟨hm, hvs, hps, hgs⟩
    refine ext_of_find? ?_ ?_ (fun name => ?_) (fun name => ?_) (fun name => ?_)
    · rw [version_fresh, version_fresh]
    · rw [modPolicy_fresh, modPolicy_fresh, hm]
    · rw [find?_groups_fresh, find?_groups_fresh, hgs]
    · rw [find?_values_fresh, find?_values_fresh, hvs]
    · rw [find?_policies_fresh, find?_policies_fresh, hps]

theorem fresh_sameContent (g : Group) : g.fresh.SameContent g := by
  induction g using Group.ind with
  | step g ih =>
    refine sameContent_iff.2 ⟨modPolicy_fresh g, fun name => ?_, fun name => ?_, fun name => ?_⟩
    · rw [find?_values_fresh, Option.map_map]
      rfl
    · rw [find?_policies_fresh, Option.map_map]
      rfl
    · rw [find?_groups_fresh, Option.map_map]
      cases h : g.groups.find? name with
      | none => rfl
      | some child => exact congrArg some (ih name child h)

/-! ## Paths -/

theorem find?_groups_setGroup (g : Group) (name : String) (child : Group) (key : String) :
    (g.setGroup name child).groups.find? key =
      if name = key then some child else g.groups.find? key :=
  SortedFrom.find?_insert g.groups name child key

theorem at?_cons (g : Group) (name : String) (path : List String) :
    g.at? (name :: path) = (g.groups.find? name).bind (·.at? path) := by
  rw [at?]
  cases g.groups.find? name <;> rfl

theorem at?_cons_of_some {g child : Group} {name : String} {path : List String}
    (h : g.groups.find? name = some child) :
    g.at? (name :: path) = child.at? path := by
  rw [at?_cons, h, Option.bind_some]

theorem at?_append (g : Group) (path path' : List String) :
    g.at? (path ++ path') = (g.at? path).bind (·.at? path') := by
  induction path generalizing g with
  | nil => rfl
  | cons name path ih =>
    rw [List.cons_append, at?_cons, at?_cons, Option.bind_assoc]
    simp only [ih]

theorem at?_fresh (g : Group) (path : List String) :
    g.fresh.at? path = (g.at? path).map fresh := by
  induction path generalizing g with
  | nil => rfl
  | cons name path ih =>
    rw [at?_cons, at?_cons, find?_groups_fresh, Option.bind_map, Option.map_bind]
    simp only [Function.comp_def, ih]

/-- Trees of the same content have it at every path. -/
theorem SameContent.at? {a b : Group} (h : a.SameContent b) (path : List String) :
    (a.at? path).map fresh = (b.at? path).map fresh := by
  rw [← at?_fresh, ← at?_fresh, h]

/-- Groups that agree apart from their versions and their child groups. -/
def SameLevel (a b : Group) : Prop :=
  a.modPolicy = b.modPolicy ∧ SameLeaves a.values b.values ∧ SameLeaves a.policies b.policies

theorem SameLevel.symm {a b : Group} (h : a.SameLevel b) : b.SameLevel a :=
  ⟨h.1.symm, fun name => (h.2.1 name).symm, fun name => (h.2.2 name).symm⟩

theorem SameContent.sameLevel {a b : Group} (h : a.SameContent b) : a.SameLevel b := by
  obtain ⟨hm, hvs, hps, -⟩ := sameContent_iff.1 h
  exact ⟨hm, hvs, hps⟩

/-- Trees have the same content if they have groups at the same paths, which agree one by one. -/
theorem sameContent_iff_at? {a b : Group} :
    a.SameContent b ↔ ∀ path, Option.Rel SameLevel (a.at? path) (b.at? path) := by
  constructor
  · intro h path
    have hpath := h.at? path
    cases ha : a.at? path with
    | none =>
      rw [ha, Option.map_none, eq_comm, Option.map_eq_none_iff] at hpath
      rw [hpath]
      exact .none
    | some c =>
      rw [ha, Option.map_some, eq_comm, Option.map_eq_some_iff] at hpath
      obtain ⟨u, hb, hcu⟩ := hpath
      rw [hb]
      exact .some (SameContent.sameLevel hcu.symm)
  · intro h
    induction a using Group.ind generalizing b with
    | step a ih =>
      have hroot : a.SameLevel b := by
        cases h []
        assumption
      obtain ⟨hm, hvs, hps⟩ := hroot
      refine sameContent_iff.2 ⟨hm, hvs, hps, fun name => ?_⟩
      have hchild : ∀ path, Option.Rel SameLevel ((a.groups.find? name).bind (·.at? path))
          ((b.groups.find? name).bind (·.at? path)) := by
        intro path
        rw [← at?_cons, ← at?_cons]
        exact h (name :: path)
      cases ha : a.groups.find? name with
      | none =>
        cases hb : b.groups.find? name with
        | none => rfl
        | some u =>
          rw [ha, hb] at hchild
          cases hchild []
      | some c =>
        rw [ha] at hchild
        cases hb : b.groups.find? name with
        | none =>
          rw [hb] at hchild
          cases hchild []
        | some u =>
          rw [hb] at hchild
          exact congrArg some (ih name c ha hchild)

end Group

end ChannelConfig
