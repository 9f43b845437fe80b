import ChannelConfig.Proofs.Tree.Delta

/-! Applying the write set of an update. `apply` takes everything from the write set but keeps the
child groups that it does not name, so groups that the desired tree drops stay.
`apply_write_delta` says that applying the write set gives what applying the desired tree itself
would give, and `at?_apply` says what that is, path by path. -/

set_option autoImplicit false

namespace ChannelConfig.Group

/-! ## Applying -/

mutual
/-- The tree after a write set. -/
def apply (current written : Group) : Group :=
  match current with
  | ⟨_, groups, _, _, _⟩ =>
    { written with groups := written.groups.overlay (applyChildren groups written.groups) }

def applyChildren : {lo : Option String} → SortedFrom Group lo → NameMap Group →
    SortedFrom Group lo
  | _, .nil, _ => .nil
  | _, .cons name above current rest, written =>
    match written.find? name with
    | some w => .cons name above (apply current w) (applyChildren rest written)
    | none => .cons name above current (applyChildren rest written)
end

@[simp] theorem modPolicy_apply (current written : Group) :
    (current.apply written).modPolicy = written.modPolicy := by
  cases current
  rw [apply]

@[simp] theorem values_apply (current written : Group) :
    (current.apply written).values = written.values := by
  cases current
  rw [apply]

@[simp] theorem policies_apply (current written : Group) :
    (current.apply written).policies = written.policies := by
  cases current
  rw [apply]

theorem find?_applyChildren (written : NameMap Group) (name : String) :
    {lo : Option String} → (m : SortedFrom Group lo) →
    (applyChildren m written).find? name = (m.find? name).map fun c =>
      match written.find? name with
      | some w => c.apply w
      | none => c
  | _, .nil => rfl
  | _, .cons n _ c rest => by
    rw [applyChildren]
    by_cases hn : n = name
    · subst hn
      split
      · rw [SortedFrom.find?_cons_self, SortedFrom.find?_cons_self, Option.map_some]
      · rw [SortedFrom.find?_cons_self, SortedFrom.find?_cons_self, Option.map_some]
    · rw [SortedFrom.find?_cons_of_ne hn, ← find?_applyChildren written name rest]
      split
      · rw [SortedFrom.find?_cons_of_ne hn]
      · rw [SortedFrom.find?_cons_of_ne hn]

theorem find?_groups_apply (current written : Group) (name : String) :
    (current.apply written).groups.find? name =
      match current.groups.find? name, written.groups.find? name with
      | some c, some w => some (c.apply w)
      | some c, none => some c
      | none, found => found := by
  obtain ⟨version, groups, values, policies, modPolicy⟩ := current
  rw [apply, SortedFrom.find?_overlay, find?_applyChildren]
  cases groups.find? name <;> cases written.groups.find? name <;> rfl

/-- What a path finds after a write set: both trees' groups merge, any other group stays whole. -/
theorem at?_apply (current written : Group) (path : List String) :
    (current.apply written).at? path =
      match current.at? path, written.at? path with
      | some c, some w => some (c.apply w)
      | some c, none => some c
      | none, found => found := by
  induction path generalizing current written with
  | nil => rfl
  | cons name path ih =>
    rw [at?_cons, at?_cons, at?_cons, find?_groups_apply]
    cases current.groups.find? name with
    | none => rfl
    | some c =>
      cases written.groups.find? name with
      | some w => exact ih c w
      | none =>
        simp only [Option.bind_some, Option.bind_none]
        cases c.at? path <;> rfl

/-! ## Trees that drop no group -/

/-- Wherever both trees have a group, the new one has all the child groups of the old one. -/
def KeepsGroups (current updated : Group) : Prop :=
  ∀ path c u, current.at? path = some c → updated.at? path = some u →
    ∀ name, c.groups.contains name = true → u.groups.contains name = true

theorem KeepsGroups.child {current updated c u : Group} {name : String}
    (h : current.KeepsGroups updated) (hc : current.groups.find? name = some c)
    (hu : updated.groups.find? name = some u) : c.KeepsGroups u := by
  intro path c' u' hc' hu'
  refine h (name :: path) c' u' ?_ ?_
  · rw [at?_cons, hc]
    exact hc'
  · rw [at?_cons, hu]
    exact hu'

theorem SameContent.keepsGroups {a b : Group} (h : a.SameContent b) : a.KeepsGroups b := by
  intro path c u hc hu name hname
  have hcu : c.SameContent u := by
    have := h.at? path
    rw [hc, hu] at this
    exact Option.some.inj this
  have hgs := (sameContent_iff.1 hcu).2.2.2 name
  rw [SortedFrom.contains, ← Option.isSome_map (f := fresh)] at hname ⊢
  rwa [← hgs]

/-- Where nothing is dropped, nothing of the old tree stays. -/
theorem KeepsGroups.apply_sameContent {current updated : Group}
    (h : current.KeepsGroups updated) : (current.apply updated).SameContent updated := by
  induction current using Group.ind generalizing updated with
  | step current ih =>
    refine sameContent_iff.2 ⟨modPolicy_apply _ _, fun name => ?_, fun name => ?_, fun name => ?_⟩
    · rw [values_apply]
    · rw [policies_apply]
    · rw [find?_groups_apply]
      cases hc : current.groups.find? name with
      | none => rfl
      | some c =>
        cases hu : updated.groups.find? name with
        | some u => exact congrArg some (ih name c hc (h.child hc hu))
        | none =>
          obtain ⟨u, hu'⟩ := (SortedFrom.contains_iff _).1
            (h [] current updated rfl rfl name ((SortedFrom.contains_iff _).2 ⟨c, hc⟩))
          rw [hu] at hu'
          cases hu'

/-! ## Applying a write set -/

/-- Applying what is written has the effect of applying the desired tree. -/
theorem apply_write_delta (current updated : Group) :
    (current.apply (current.delta updated).write).SameContent (current.apply updated) := by
  induction current using Group.ind generalizing updated with
  | step current ih =>
    refine sameContent_iff.2 ⟨?_, ?_, ?_, fun name => ?_⟩
    · rw [modPolicy_apply, modPolicy_apply]
      rfl
    · rw [values_apply, values_apply]
      exact sameLeaves_writeLeaves _ _
    · rw [policies_apply, policies_apply]
      exact sameLeaves_writeLeaves _ _
    · rw [find?_groups_apply, find?_groups_apply, find?_groups_write_delta]
      cases hc : current.groups.find? name with
      | none =>
        cases updated.groups.find? name with
        | none => rfl
        | some u => exact congrArg some (fresh_sameContent u)
      | some c =>
        cases updated.groups.find? name with
        | none => rfl
        | some u =>
          dsimp only [Option.bind_some]
          cases hd : c.diff? u with
          | some d =>
            cases eq_delta_of_diff? hd
            exact congrArg some (ih name c hc u)
          | none =>
            -- an unchanged child group is not written, so the old one stays
            have hcu := diff?_eq_none_iff.1 hd
            exact congrArg some (hcu.trans hcu.keepsGroups.apply_sameContent.symm)

/-- `result` is `updated` laid over those child groups of `current` that `updated` drops. -/
structure IsOverlay (current updated result : Group) : Prop where
  /-- A group of both trees is the new one, with the child groups of either. -/
  shared : ∀ path c u, current.at? path = some c → updated.at? path = some u →
    ∃ r, result.at? path = some r ∧ r.modPolicy = u.modPolicy ∧ SameLeaves r.values u.values ∧
      SameLeaves r.policies u.policies ∧
      ∀ name, r.groups.contains name = (c.groups.contains name || u.groups.contains name)
  added : ∀ path u, current.at? path = none → updated.at? path = some u →
    ∃ r, result.at? path = some r ∧ r.SameContent u
  kept : ∀ path c, current.at? path = some c → updated.at? path = none →
    ∃ r, result.at? path = some r ∧ r.SameContent c
  absent : ∀ path, current.at? path = none → updated.at? path = none → result.at? path = none

theorem isOverlay_apply (current updated : Group) :
    IsOverlay current updated (current.apply updated) where
  shared path c u hc hu := by
    refine ⟨c.apply u, by rw [at?_apply, hc, hu], modPolicy_apply _ _, fun name => ?_,
      fun name => ?_, fun name => ?_⟩
    · rw [values_apply]
    · rw [policies_apply]
    · rw [SortedFrom.contains, find?_groups_apply, SortedFrom.contains, SortedFrom.contains]
      cases c.groups.find? name <;> cases u.groups.find? name <;> rfl
  added path u hc hu := ⟨u, by rw [at?_apply, hc, hu], .refl u⟩
  kept path c hc hu := ⟨c, by rw [at?_apply, hc, hu], .refl c⟩
  absent path hc hu := by rw [at?_apply, hc, hu]

theorem SameContent.exists_at? {a b g : Group} {path : List String} (h : a.SameContent b)
    (hg : b.at? path = some g) : ∃ r, a.at? path = some r ∧ r.SameContent g := by
  have := h.at? path
  rw [hg] at this
  exact Option.map_eq_some_iff.1 this

/-- Being an overlay is a matter of content. -/
theorem IsOverlay.of_sameContent {current updated result result' : Group}
    (h : IsOverlay current updated result) (hr : result'.SameContent result) :
    IsOverlay current updated result' where
  shared path c u hc hu := by
    obtain ⟨r, hat, hm, hvs, hps, hgs⟩ := h.shared path c u hc hu
    obtain ⟨r', hat', hrr⟩ := hr.exists_at? hat
    obtain ⟨hm', hvs', hps', hgs'⟩ := sameContent_iff.1 hrr
    refine ⟨r', hat', hm'.trans hm, fun name => (hvs' name).trans (hvs name),
      fun name => (hps' name).trans (hps name), fun name => ?_⟩
    rw [← hgs name, SortedFrom.contains, ← Option.isSome_map (f := fresh), hgs' name,
      Option.isSome_map]
    rfl
  added path u hc hu := by
    obtain ⟨r, hat, hru⟩ := h.added path u hc hu
    obtain ⟨r', hat', hrr⟩ := hr.exists_at? hat
    exact ⟨r', hat', hrr.trans hru⟩
  kept path c hc hu := by
    obtain ⟨r, hat, hrc⟩ := h.kept path c hc hu
    obtain ⟨r', hat', hrr⟩ := hr.exists_at? hat
    exact ⟨r', hat', hrr.trans hrc⟩
  absent path hc hu := by
    have := hr.at? path
    rw [h.absent path hc hu] at this
    exact Option.map_eq_none_iff.1 this

/-- An update moves the tree that it was made for to the desired tree, except that child groups
which the desired tree drops stay as they were. -/
theorem apply_writeSet {current updated : Group} {d : ConfigUpdate}
    (h : updateBetween current updated = .ok d) :
    ∃ w, d.writeSet = some w ∧ (current.apply w).SameContent (current.apply updated) ∧
      IsOverlay current updated (current.apply w) ∧
      (current.KeepsGroups updated → (current.apply w).SameContent updated) := by
  obtain ⟨-, rfl⟩ := updateBetween_eq_ok_iff.1 h
  have hw := apply_write_delta current updated
  exact ⟨_, rfl, hw, (isOverlay_apply current updated).of_sameContent hw,
    fun hkeep => hw.trans hkeep.apply_sameContent⟩

/-- One group goes, one changes and one comes. -/
theorem apply_writeSet_three_orgs :
    updateBetween (setGroup (setGroup {} "Org1" {}) "Org2" {})
        (setGroup (setGroup {} "Org2" { modPolicy := "Admins" }) "Org3" { version := 7 }) =
      .ok {
        readSet := some (setGroup {} "Org2" {})
        writeSet := some (setGroup (setGroup { version := 1 } "Org2"
          { version := 1, modPolicy := "Admins" }) "Org3" {}) } ∧
    ∃ w, some (setGroup (setGroup { version := 1 } "Org2"
          { version := 1, modPolicy := "Admins" }) "Org3" {}) = some w ∧
      (apply (setGroup (setGroup {} "Org1" {}) "Org2" {}) w).SameContent
        (apply (setGroup (setGroup {} "Org1" {}) "Org2" {})
          (setGroup (setGroup {} "Org2" { modPolicy := "Admins" }) "Org3" { version := 7 })) ∧
      IsOverlay (setGroup (setGroup {} "Org1" {}) "Org2" {})
        (setGroup (setGroup {} "Org2" { modPolicy := "Admins" }) "Org3" { version := 7 })
        (apply (setGroup (setGroup {} "Org1" {}) "Org2" {}) w) ∧
      (KeepsGroups (setGroup (setGroup {} "Org1" {}) "Org2" {})
          (setGroup (setGroup {} "Org2" { modPolicy := "Admins" }) "Org3" { version := 7 }) →
        (apply (setGroup (setGroup {} "Org1" {}) "Org2" {}) w).SameContent
          (setGroup (setGroup {} "Org2" { modPolicy := "Admins" }) "Org3" { version := 7 })) := by
  have h : updateBetween (setGroup (setGroup {} "Org1" {}) "Org2" {})
        (setGroup (setGroup {} "Org2" { modPolicy := "Admins" }) "Org3" { version := 7 }) =
      .ok {
        readSet := some (setGroup {} "Org2" {})
        writeSet := some (setGroup (setGroup { version := 1 } "Org2"
          { version := 1, modPolicy := "Admins" }) "Org3" {}) } := rfl
  exact ⟨h, apply_writeSet h⟩

end ChannelConfig.Group
