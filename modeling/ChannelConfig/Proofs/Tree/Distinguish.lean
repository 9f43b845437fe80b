import ChannelConfig.Proofs.Tree.Delta

/-! Which trees updates tell apart. There is no update between two trees exactly if they have the
same content. Two desired trees have the same update from one tree exactly if `SameChanges` holds of
them: an update does not say which of the groups that it leaves out the desired tree drops and which
it keeps unchanged, and nothing else is lost in it. -/

set_option autoImplicit false

namespace ChannelConfig.Group

/-! ## A tree and a desired tree -/

theorem updateBetween_eq_error_iff {current updated : Group} {e : ConfigError} :
    updateBetween current updated = .error e ↔
      current.SameContent updated ∧ e = .noDifferences := by
  rw [← diff?_eq_none_iff, updateBetween]
  cases current.diff? updated <;> simp [eq_comm]

theorem updateBetween_self (g : Group) : updateBetween g g = .error .noDifferences :=
  updateBetween_eq_error_iff.2 ⟨SameContent.refl g, rfl⟩

/-- There is no update exactly between trees of the same content, in either direction; between any
others there is one, with both sets. -/
theorem updateBetween_eq_noDifferences_iff (current updated : Group) :
    (updateBetween current updated = .error .noDifferences ↔ current.SameContent updated) ∧
    (current.SameContent updated ↔
      ∀ path, Option.Rel SameLevel (current.at? path) (updated.at? path)) ∧
    (updateBetween current updated = .error .noDifferences ∨
      ∃ read write, updateBetween current updated =
        .ok { readSet := some read, writeSet := some write }) ∧
    (updateBetween current updated = .error .noDifferences ↔
      updateBetween updated current = .error .noDifferences) := by
  have hiff : ∀ {a b : Group}, updateBetween a b = .error .noDifferences ↔ a.SameContent b := by
    intro a b
    rw [updateBetween_eq_error_iff, and_iff_left rfl]
  refine ⟨hiff, sameContent_iff_at?, ?_, ?_⟩
  · by_cases h : current.SameContent updated
    · exact .inl (hiff.2 h)
    · exact .inr ⟨_, _, updateBetween_eq_ok_iff.2 ⟨h, rfl⟩⟩
  · rw [hiff, hiff]
    exact ⟨SameContent.symm, SameContent.symm⟩

/-! ## Two desired trees -/

/-- Above or at the path the second tree drops a group that the first one keeps as it is. -/
def DropsUnchanged (current first second : Group) (path : List String) : Prop :=
  ∃ above below c u, path = above ++ below ∧ current.at? above = some c ∧
    first.at? above = some u ∧ c.SameContent u ∧ second.at? above = none

/-- Two desired trees change the same, except that one may drop groups which the other keeps as
they are. -/
structure SameChanges (current left right : Group) : Prop where
  shared : ∀ path l r, left.at? path = some l → right.at? path = some r → l.SameLevel r
  unchanged_iff : ∀ path c l r, current.at? path = some c → left.at? path = some l →
    right.at? path = some r → (c.SameContent l ↔ c.SameContent r)
  left_only : ∀ path l, left.at? path = some l → right.at? path = none →
    DropsUnchanged current left right path
  right_only : ∀ path r, right.at? path = some r → left.at? path = none →
    DropsUnchanged current right left path

/-- The same of one level, with the child groups as updates see them. -/
structure SameStep (current left right : Group) : Prop where
  level : left.SameLevel right
  unchanged_iff : current.SameContent left ↔ current.SameContent right
  added : ∀ name, current.groups.find? name = none →
    (left.groups.find? name).map fresh = (right.groups.find? name).map fresh
  kept : ∀ name c, current.groups.find? name = some c →
    (left.groups.find? name).bind c.diff? = (right.groups.find? name).bind c.diff?

/-! ### One level -/

theorem Delta.ext_iff {d d' : Delta} : d = d' ↔ d.read = d'.read ∧ d.write = d'.write := by
  cases d
  cases d'
  simp

theorem map_read_write_inj {x y : Option Delta} (hread : x.map Delta.read = y.map Delta.read)
    (hwrite : x.map Delta.write = y.map Delta.write) : x = y := by
  cases x with
  | none => cases y with
    | none => rfl
    | some d' => cases hread
  | some d => cases y with
    | none => cases hread
    | some d' => exact congrArg some (Delta.ext_iff.2 ⟨Option.some.inj hread, Option.some.inj hwrite⟩)

theorem SameStep.of_delta_eq {current left right : Group} (hl : ¬ current.SameContent left)
    (hr : ¬ current.SameContent right) (h : current.delta left = current.delta right) :
    SameStep current left right where
  level := by
    obtain ⟨-, hwrite⟩ := Delta.ext_iff.1 h
    rw [delta, delta, mk.injEq] at hwrite
    obtain ⟨-, -, hvalues, hpolicies, hm⟩ := hwrite
    exact ⟨hm, writeLeaves_eq_iff.1 hvalues, writeLeaves_eq_iff.1 hpolicies⟩
  unchanged_iff := iff_of_false hl hr
  added name hname := by
    have hwrite : (current.delta left).write.groups.find? name =
        (current.delta right).write.groups.find? name := by rw [h]
    rw [find?_groups_write_delta, find?_groups_write_delta, hname] at hwrite
    rwa [Option.map_eq_bind, Option.map_eq_bind]
  kept name c hname := by
    have hread : (current.delta left).read.groups.find? name =
        (current.delta right).read.groups.find? name := by rw [h]
    have hwrite : (current.delta left).write.groups.find? name =
        (current.delta right).write.groups.find? name := by rw [h]
    rw [find?_groups_read_delta, find?_groups_read_delta, hname] at hread
    rw [find?_groups_write_delta, find?_groups_write_delta, hname] at hwrite
    refine map_read_write_inj ?_ ?_
    · rw [Option.map_bind, Option.map_bind]
      exact hread
    · rw [Option.map_bind, Option.map_bind]
      exact hwrite

theorem SameStep.delta_eq {current left right : Group} (h : SameStep current left right) :
    current.delta left = current.delta right := by
  obtain ⟨⟨hm, hvalues, hpolicies⟩, -, hadded, hkept⟩ := h
  have hbind : ∀ name, ((current.groups.find? name).bind fun c =>
      (left.groups.find? name).bind c.diff?) = (current.groups.find? name).bind fun c =>
        (right.groups.find? name).bind c.diff? := by
    intro name
    cases hc : current.groups.find? name with
    | none => rfl
    | some c => exact hkept name c hc
  have hdeltas : diffChildren current.groups left.groups =
      diffChildren current.groups right.groups := by
    refine SortedFrom.ext fun name => ?_
    rw [find?_diffChildren, find?_diffChildren]
    exact hbind name
  have hnew : newGroups current left = newGroups current right := by
    refine SortedFrom.ext fun name => ?_
    rw [find?_newGroups, find?_newGroups]
    cases hc : current.groups.find? name with
    | none => exact hadded name hc
    | some c => rfl
  rw [delta, delta, hdeltas, hnew, hm, writeLeaves_eq_iff.2 hvalues,
    writeLeaves_eq_iff.2 hpolicies, hvalues.readLeaves_eq, hpolicies.readLeaves_eq]

theorem SameStep.of_sameContent {current left right : Group} (hl : current.SameContent left)
    (hr : current.SameContent right) : SameStep current left right where
  level := (hl.symm.trans hr).sameLevel
  unchanged_iff := iff_of_true hl hr
  added name _ := (sameContent_iff.1 (hl.symm.trans hr)).2.2.2 name
  kept name c hname := by
    have hnone : ∀ {g : Group}, current.SameContent g → (g.groups.find? name).bind c.diff? = none := by
      intro g hg
      have hchild := (sameContent_iff.1 hg).2.2.2 name
      rw [hname, Option.map_some, eq_comm, Option.map_eq_some_iff] at hchild
      obtain ⟨u, hu, huc⟩ := hchild
      rw [hu]
      exact diff?_eq_none_iff.2 (SameContent.symm huc)
    rw [hnone hl, hnone hr]

/-- Two desired trees have the same update exactly if they have it level by level. -/
theorem diff?_eq_iff_sameStep {current left right : Group} :
    current.diff? left = current.diff? right ↔ SameStep current left right := by
  constructor
  · intro h
    by_cases hl : current.SameContent left
    · rw [diff?_eq_none_iff.2 hl, eq_comm, diff?_eq_none_iff] at h
      exact .of_sameContent hl h
    · have hr : ¬ current.SameContent right := by
        rwa [← diff?_eq_none_iff, ← h, diff?_eq_none_iff]
      rw [diff?_eq_some hl, diff?_eq_some hr] at h
      exact .of_delta_eq hl hr (Option.some.inj h)
  · intro h
    by_cases hl : current.SameContent left
    · rw [diff?_eq_none_iff.2 hl, diff?_eq_none_iff.2 (h.unchanged_iff.1 hl)]
    · rw [diff?_eq_some hl, diff?_eq_some (mt h.unchanged_iff.2 hl), h.delta_eq]

/-! ### All levels -/

section
variable {current left right c l r : Group} {name : String} {path : List String}

theorem SameStep.symm (h : SameStep current left right) : SameStep current right left where
  level := h.level.symm
  unchanged_iff := h.unchanged_iff.symm
  added name hname := (h.added name hname).symm
  kept name c hname := (h.kept name c hname).symm

theorem SameChanges.symm (h : SameChanges current left right) :
    SameChanges current right left where
  shared path r l hr hl := (h.shared path l r hl hr).symm
  unchanged_iff path c r l hc hr hl := (h.unchanged_iff path c l r hc hl hr).symm
  left_only := h.right_only
  right_only := h.left_only

theorem dropsUnchanged_cons (hc : current.groups.find? name = some c)
    (hl : left.groups.find? name = some l) (hr : right.groups.find? name = some r) :
    DropsUnchanged current left right (name :: path) ↔ DropsUnchanged c l r path := by
  constructor
  · rintro ⟨above, below, c', u, hpath, hc', hu, hsame, hdrop⟩
    cases above with
    | nil => cases hdrop
    | cons step above =>
      obtain ⟨rfl, rfl⟩ := List.cons.inj hpath
      rw [at?_cons_of_some hc] at hc'
      rw [at?_cons_of_some hl] at hu
      rw [at?_cons_of_some hr] at hdrop
      exact ⟨above, below, c', u, rfl, hc', hu, hsame, hdrop⟩
  · rintro ⟨above, below, c', u, rfl, hc', hu, hsame, hdrop⟩
    refine ⟨name :: above, below, c', u, rfl, ?_, ?_, hsame, ?_⟩
    · rwa [at?_cons_of_some hc]
    · rwa [at?_cons_of_some hl]
    · rwa [at?_cons_of_some hr]

theorem SameChanges.child (h : SameChanges current left right)
    (hc : current.groups.find? name = some c) (hl : left.groups.find? name = some l)
    (hr : right.groups.find? name = some r) : SameChanges c l r := by
  constructor
  · intro path l' r' hl' hr'
    rw [← at?_cons_of_some hl] at hl'
    rw [← at?_cons_of_some hr] at hr'
    exact h.shared _ l' r' hl' hr'
  · intro path c' l' r' hc' hl' hr'
    rw [← at?_cons_of_some hc] at hc'
    rw [← at?_cons_of_some hl] at hl'
    rw [← at?_cons_of_some hr] at hr'
    exact h.unchanged_iff _ c' l' r' hc' hl' hr'
  · intro path l' hl' hr'
    rw [← at?_cons_of_some hl] at hl'
    rw [← at?_cons_of_some hr] at hr'
    exact (dropsUnchanged_cons hc hl hr).1 (h.left_only _ l' hl' hr')
  · intro path r' hr' hl'
    rw [← at?_cons_of_some hl] at hl'
    rw [← at?_cons_of_some hr] at hr'
    exact (dropsUnchanged_cons hc hr hl).1 (h.right_only _ r' hr' hl')

/-- A child group that only one of the trees has is one that the current tree has and that one keeps
as it is. -/
theorem SameChanges.sameContent_of_dropped (h : SameChanges current left right)
    (hl : left.groups.find? name = some l) (hr : right.groups.find? name = none) :
    ∃ c, current.groups.find? name = some c ∧ c.SameContent l := by
  have hleft : left.at? [name] = some l := at?_cons_of_some hl
  have hright : right.at? [name] = none := by rw [at?_cons, hr, Option.bind_none]
  obtain ⟨above, below, c, u, hpath, hc, hu, hsame, hdrop⟩ := h.left_only [name] l hleft hright
  cases above with
  | nil => cases hdrop
  | cons step above =>
    obtain ⟨rfl, habove⟩ := List.cons.inj hpath
    obtain ⟨rfl, -⟩ := List.append_eq_nil_iff.1 habove.symm
    rw [hleft] at hu
    cases hu
    rw [at?_cons] at hc
    obtain ⟨c', hc', hat⟩ := Option.bind_eq_some_iff.1 hc
    cases hat
    exact ⟨c, hc', hsame⟩

theorem not_dropsUnchanged_of_added (hc : current.groups.find? name = none) :
    ¬ DropsUnchanged current left right (name :: path) := by
  rintro ⟨above, below, c, u, hpath, hc', -, -, hdrop⟩
  cases above with
  | nil => cases hdrop
  | cons step above =>
    obtain ⟨rfl, -⟩ := List.cons.inj hpath
    rw [at?_cons, hc, Option.bind_none] at hc'
    cases hc'

/-- Child groups that only the desired trees have are the same in both. -/
theorem SameChanges.sameContent_of_added (h : SameChanges current left right)
    (hc : current.groups.find? name = none) (hl : left.groups.find? name = some l)
    (hr : right.groups.find? name = some r) : l.SameContent r := by
  refine sameContent_iff_at?.2 fun path => ?_
  have hl' : left.at? (name :: path) = l.at? path := at?_cons_of_some hl
  have hr' : right.at? (name :: path) = r.at? path := at?_cons_of_some hr
  cases hleft : l.at? path with
  | none =>
    cases hright : r.at? path with
    | none => exact .none
    | some r' =>
      have hdrop := h.right_only _ r' (hr'.trans hright) (hl'.trans hleft)
      exact absurd hdrop (not_dropsUnchanged_of_added hc)
  | some l' =>
    cases hright : r.at? path with
    | none =>
      have hdrop := h.left_only _ l' (hl'.trans hleft) (hr'.trans hright)
      exact absurd hdrop (not_dropsUnchanged_of_added hc)
    | some r' => exact .some (h.shared _ l' r' (hl'.trans hleft) (hr'.trans hright))

/-- Level by level from all paths, given the same of the child groups. -/
theorem SameChanges.sameStep (h : SameChanges current left right)
    (ih : ∀ name c, current.groups.find? name = some c →
      ∀ l r, SameChanges c l r → c.diff? l = c.diff? r) : SameStep current left right where
  level := h.shared [] left right rfl rfl
  unchanged_iff := h.unchanged_iff [] current left right rfl rfl rfl
  added name hname := by
    cases hl : left.groups.find? name with
    | none =>
      cases hr : right.groups.find? name with
      | none => rfl
      | some r =>
        obtain ⟨c, hc, -⟩ := h.symm.sameContent_of_dropped hr hl
        rw [hname] at hc
        cases hc
    | some l =>
      cases hr : right.groups.find? name with
      | none =>
        obtain ⟨c, hc, -⟩ := h.sameContent_of_dropped hl hr
        rw [hname] at hc
        cases hc
      | some r => exact congrArg some (h.sameContent_of_added hname hl hr)
  kept name c hname := by
    cases hl : left.groups.find? name with
    | none =>
      cases hr : right.groups.find? name with
      | none => rfl
      | some r =>
        obtain ⟨c', hc, hsame⟩ := h.symm.sameContent_of_dropped hr hl
        rw [hname] at hc
        cases hc
        exact (diff?_eq_none_iff.2 hsame).symm
    | some l =>
      cases hr : right.groups.find? name with
      | none =>
        obtain ⟨c', hc, hsame⟩ := h.sameContent_of_dropped hl hr
        rw [hname] at hc
        cases hc
        exact diff?_eq_none_iff.2 hsame
      | some r => exact ih name c hname l r (h.child hname hl hr)

theorem SameStep.dropsUnchanged (h : SameStep current left right)
    (ih : ∀ name c, current.groups.find? name = some c →
      ∀ l r, c.diff? l = c.diff? r → SameChanges c l r)
    (hl : left.at? path = some l) (hr : right.at? path = none) :
    DropsUnchanged current left right path := by
  cases path with
  | nil => cases hr
  | cons name path =>
    rw [at?_cons] at hl
    obtain ⟨l', hl', hleft⟩ := Option.bind_eq_some_iff.1 hl
    cases hc : current.groups.find? name with
    | none =>
      have hadded := h.added name hc
      rw [hl', Option.map_some, eq_comm, Option.map_eq_some_iff] at hadded
      obtain ⟨r', hr', hsame⟩ := hadded
      rw [at?_cons_of_some hr'] at hr
      have hrel := sameContent_iff_at?.1 hsame path
      rw [hleft, hr] at hrel
      cases hrel
    | some c =>
      have hkept := h.kept name c hc
      rw [hl', Option.bind_some] at hkept
      cases hr' : right.groups.find? name with
      | none =>
        rw [hr', Option.bind_none] at hkept
        exact ⟨[name], path, c, l', rfl, at?_cons_of_some hc, at?_cons_of_some hl',
          diff?_eq_none_iff.1 hkept, by rw [at?_cons, hr', Option.bind_none]⟩
      | some r' =>
        rw [hr', Option.bind_some] at hkept
        rw [at?_cons_of_some hr'] at hr
        exact (dropsUnchanged_cons hc hl' hr').2
          ((ih name c hc l' r' hkept).left_only path l hleft hr)

/-- All paths from the level, given the same of the child groups. -/
theorem SameStep.sameChanges (h : SameStep current left right)
    (ih : ∀ name c, current.groups.find? name = some c →
      ∀ l r, c.diff? l = c.diff? r → SameChanges c l r) : SameChanges current left right where
  shared path l r hl hr := by
    cases path with
    | nil =>
      cases hl
      cases hr
      exact h.level
    | cons name path =>
      rw [at?_cons] at hl hr
      obtain ⟨l', hl', hleft⟩ := Option.bind_eq_some_iff.1 hl
      obtain ⟨r', hr', hright⟩ := Option.bind_eq_some_iff.1 hr
      cases hc : current.groups.find? name with
      | none =>
        have hadded := h.added name hc
        rw [hl', hr'] at hadded
        have hrel := sameContent_iff_at?.1 (Option.some.inj hadded) path
        rw [hleft, hright] at hrel
        cases hrel
        assumption
      | some c =>
        have hkept := h.kept name c hc
        rw [hl', hr'] at hkept
        exact (ih name c hc l' r' hkept).shared path l r hleft hright
  unchanged_iff path c l r hc hl hr := by
    cases path with
    | nil =>
      cases hc
      cases hl
      cases hr
      exact h.unchanged_iff
    | cons name path =>
      rw [at?_cons] at hc hl hr
      obtain ⟨c', hc', hcurrent⟩ := Option.bind_eq_some_iff.1 hc
      obtain ⟨l', hl', hleft⟩ := Option.bind_eq_some_iff.1 hl
      obtain ⟨r', hr', hright⟩ := Option.bind_eq_some_iff.1 hr
      have hkept := h.kept name c' hc'
      rw [hl', hr'] at hkept
      exact (ih name c' hc' l' r' hkept).unchanged_iff path c l r hcurrent hleft hright
  left_only path l hl hr := h.dropsUnchanged ih hl hr
  right_only path r hr hl := h.symm.dropsUnchanged (fun name c hc l r he =>
    (ih name c hc r l he.symm).symm) hr hl

end

/-- Updates from one tree are equal exactly if the desired trees change the same. -/
theorem diff?_eq_iff_sameChanges {current left right : Group} :
    current.diff? left = current.diff? right ↔ SameChanges current left right := by
  induction current using Group.ind generalizing left right with
  | step current ih =>
    rw [diff?_eq_iff_sameStep]
    constructor
    · intro h
      exact h.sameChanges fun name c hc l r he => (ih name c hc).1 he
    · intro h
      exact h.sameStep fun name c hc l r hchanges => (ih name c hc).2 hchanges

/-- Desired trees that change the same and drop the same have the same content. -/
theorem SameChanges.sameContent {current left right : Group} (h : SameChanges current left right)
    (hkept : ∀ path, (current.at? path).isSome = true →
      (left.at? path).isSome = (right.at? path).isSome) : left.SameContent right := by
  have hdrops : ∀ {first second : Group} {path}, (∀ path, (current.at? path).isSome = true →
      (first.at? path).isSome = (second.at? path).isSome) →
      ¬ DropsUnchanged current first second path := by
    rintro first second path hkept ⟨above, below, c, u, rfl, hc, hu, -, hdrop⟩
    have habove := hkept above (by rw [hc, Option.isSome_some])
    rw [hu, hdrop] at habove
    cases habove
  refine sameContent_iff_at?.2 fun path => ?_
  cases hl : left.at? path with
  | none =>
    cases hr : right.at? path with
    | none => exact .none
    | some r =>
      exact absurd (h.right_only path r hr hl) (hdrops fun path hc => (hkept path hc).symm)
  | some l =>
    cases hr : right.at? path with
    | none => exact absurd (h.left_only path l hl hr) (hdrops hkept)
    | some r => exact .some (h.shared path l r hl hr)

/-! ### Updates -/

/-- Two desired trees have the same update from one tree exactly if they change the same; then they
have the same content, unless one of them drops a group that the other keeps. -/
theorem updateBetween_eq_iff_sameChanges {current left right : Group} {d d' : ConfigUpdate}
    (h : updateBetween current left = .ok d) (h' : updateBetween current right = .ok d') :
    (d = d' ↔ SameChanges current left right) ∧
    (d = d' → (∀ path, (current.at? path).isSome = true →
      (left.at? path).isSome = (right.at? path).isSome) → left.SameContent right) := by
  obtain ⟨hl, rfl⟩ := updateBetween_eq_ok_iff.1 h
  obtain ⟨hr, rfl⟩ := updateBetween_eq_ok_iff.1 h'
  have hiff : { readSet := some (current.delta left).read,
                writeSet := some (current.delta left).write : ConfigUpdate } =
      { readSet := some (current.delta right).read,
        writeSet := some (current.delta right).write } ↔ SameChanges current left right := by
    rw [← diff?_eq_iff_sameChanges, diff?_eq_some hl, diff?_eq_some hr, Option.some_inj,
      Delta.ext_iff]
    simp
  exact ⟨hiff, fun he => (hiff.1 he).sameContent⟩

/-- A tree of two empty groups. -/
def twoOrgs : Group := setGroup (setGroup {} "Org1" {}) "Org2" {}

/-- The same change of one group, once with the other group dropped and once with it kept. -/
theorem updateBetween_eq_iff_sameChanges_two_orgs :
    updateBetween twoOrgs (setGroup {} "Org1" { modPolicy := "Admins" }) = .ok {
      readSet := some (setGroup {} "Org1" {})
      writeSet := some (setGroup { version := 1 } "Org1"
        { version := 1, modPolicy := "Admins" }) } ∧
    updateBetween twoOrgs (setGroup twoOrgs "Org1" { modPolicy := "Admins" }) = .ok {
      readSet := some (setGroup {} "Org1" {})
      writeSet := some (setGroup { version := 1 } "Org1"
        { version := 1, modPolicy := "Admins" }) } ∧
    SameChanges twoOrgs (setGroup {} "Org1" { modPolicy := "Admins" })
      (setGroup twoOrgs "Org1" { modPolicy := "Admins" }) := by
  have hdropped : updateBetween twoOrgs (setGroup {} "Org1" { modPolicy := "Admins" }) = .ok {
      readSet := some (setGroup {} "Org1" {})
      writeSet := some (setGroup { version := 1 } "Org1"
        { version := 1, modPolicy := "Admins" }) } := rfl
  have hkept : updateBetween twoOrgs (setGroup twoOrgs "Org1" { modPolicy := "Admins" }) = .ok {
      readSet := some (setGroup {} "Org1" {})
      writeSet := some (setGroup { version := 1 } "Org1"
        { version := 1, modPolicy := "Admins" }) } := rfl
  exact ⟨hdropped, hkept, (updateBetween_eq_iff_sameChanges hdropped hkept).1.1 rfl⟩

/-- Dropping either of two groups is the same update. -/
theorem updateBetween_hides_dropped_group :
    updateBetween twoOrgs (setGroup {} "Org1" {}) =
      .ok { readSet := some {}, writeSet := some { version := 1 } } ∧
    updateBetween twoOrgs (setGroup {} "Org2" {}) =
      .ok { readSet := some {}, writeSet := some { version := 1 } } ∧
    ¬ (setGroup {} "Org1" {}).SameContent (setGroup {} "Org2" {}) := by
  refine ⟨rfl, rfl, fun h => ?_⟩
  cases sameContent_iff_at?.1 h ["Org1"]

end ChannelConfig.Group
