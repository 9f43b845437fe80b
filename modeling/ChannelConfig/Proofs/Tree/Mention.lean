import ChannelConfig.Proofs.Tree.Delta

/-! Which groups an update names. The read set names those that both trees have with different
content, the write set also those that only the desired tree has; a new group is written whole, all
versions 0, below a group that both trees have. -/

set_option autoImplicit false

namespace ChannelConfig.Group

/-- Both trees have a group at the path, with different content. -/
def ChangedAt (current updated : Group) (path : List String) : Prop :=
  ∃ c u, current.at? path = some c ∧ updated.at? path = some u ∧ ¬ c.SameContent u

/-- Only the new tree has a group at the path. -/
def AddedAt (current updated : Group) (path : List String) : Prop :=
  current.at? path = none ∧ ∃ u, updated.at? path = some u

/-! ## One step of a path -/

theorem changedAt_nil {current updated : Group} :
    ChangedAt current updated [] ↔ ¬ current.SameContent updated := by
  constructor
  · rintro ⟨c, u, hc, hu, hne⟩
    cases hc
    cases hu
    exact hne
  · intro hne
    exact ⟨current, updated, rfl, rfl, hne⟩

theorem changedAt_cons_of_some {current updated c u : Group} {name : String} {path : List String}
    (hc : current.groups.find? name = some c) (hu : updated.groups.find? name = some u) :
    ChangedAt current updated (name :: path) ↔ ChangedAt c u path := by
  rw [ChangedAt, ChangedAt, at?_cons, at?_cons, hc, hu]
  rfl

theorem addedAt_cons_of_some {current updated c u : Group} {name : String} {path : List String}
    (hc : current.groups.find? name = some c) (hu : updated.groups.find? name = some u) :
    AddedAt current updated (name :: path) ↔ AddedAt c u path := by
  rw [AddedAt, AddedAt, at?_cons, at?_cons, hc, hu]
  rfl

theorem SameContent.not_changedAt {a b : Group} (h : a.SameContent b) (path : List String) :
    ¬ ChangedAt a b path := by
  rintro ⟨c, u, hc, hu, hne⟩
  have := h.at? path
  rw [hc, hu] at this
  exact hne (Option.some.inj this)

theorem SameContent.not_addedAt {a b : Group} (h : a.SameContent b) (path : List String) :
    ¬ AddedAt a b path := by
  rintro ⟨hc, u, hu⟩
  have := h.at? path
  rw [hc, hu] at this
  cases this

/-! ## The two sets -/

theorem isSome_at?_read_delta {current updated : Group} (h : ¬ current.SameContent updated)
    (path : List String) :
    ((current.delta updated).read.at? path).isSome = true ↔ ChangedAt current updated path := by
  induction path generalizing current updated with
  | nil => exact iff_of_true rfl (changedAt_nil.2 h)
  | cons name path ih =>
    rw [at?_cons, find?_groups_read_delta]
    cases hc : current.groups.find? name with
    | none => simp [ChangedAt, at?_cons, hc]
    | some c =>
      cases hu : updated.groups.find? name with
      | none => simp [ChangedAt, at?_cons, hu]
      | some u =>
        rw [changedAt_cons_of_some hc hu]
        cases hd : c.diff? u with
        | none =>
          have hsame := diff?_eq_none_iff.1 hd
          simp [hd, hsame.not_changedAt path]
        | some d =>
          have hne : ¬ c.SameContent u := by
            rw [← diff?_eq_none_iff, hd]
            simp
          cases eq_delta_of_diff? hd
          simpa [hd] using ih hne

theorem isSome_at?_write_delta {current updated : Group} (h : ¬ current.SameContent updated)
    (path : List String) :
    ((current.delta updated).write.at? path).isSome = true ↔
      ChangedAt current updated path ∨ AddedAt current updated path := by
  induction path generalizing current updated with
  | nil => exact iff_of_true rfl (.inl (changedAt_nil.2 h))
  | cons name path ih =>
    rw [at?_cons, find?_groups_write_delta]
    cases hu : updated.groups.find? name with
    | none => simp [ChangedAt, AddedAt, at?_cons, hu]
    | some u =>
      cases hc : current.groups.find? name with
      | none =>
        have hat : u.fresh.at? path = (u.at? path).map fresh := at?_fresh u path
        simp [ChangedAt, AddedAt, at?_cons, hc, hu, hat, Option.isSome_iff_exists]
      | some c =>
        rw [changedAt_cons_of_some hc hu, addedAt_cons_of_some hc hu]
        cases hd : c.diff? u with
        | none =>
          have hsame := diff?_eq_none_iff.1 hd
          simp [hd, hsame.not_changedAt path, hsame.not_addedAt path]
        | some d =>
          have hne : ¬ c.SameContent u := by
            rw [← diff?_eq_none_iff, hd]
            simp
          cases eq_delta_of_diff? hd
          simpa [hd] using ih hne

/-- A new group below a group of both trees is written whole. -/
theorem at?_write_delta_of_parent {current updated u : Group} {path : List String} {name : String}
    (hparent : (current.at? path).isSome = true) (hc : current.at? (path ++ [name]) = none)
    (hu : updated.at? (path ++ [name]) = some u) :
    (current.delta updated).write.at? (path ++ [name]) = some u.fresh := by
  induction path generalizing current updated with
  | nil =>
    simp only [List.nil_append, at?_cons, at?, Option.bind_fun_some] at hc hu ⊢
    rw [find?_groups_write_delta, hu, hc]
    rfl
  | cons step path ih =>
    rw [List.cons_append, at?_cons] at hc hu ⊢
    rw [at?_cons] at hparent
    cases hc' : current.groups.find? step with
    | none => simp [hc'] at hparent
    | some c =>
      cases hu' : updated.groups.find? step with
      | none => simp [hu'] at hu
      | some v =>
        rw [hc', Option.bind_some] at hc hparent
        rw [hu', Option.bind_some] at hu
        rw [find?_groups_write_delta, hc', hu']
        cases hd : c.diff? v with
        | none => exact absurd ⟨hc, u, hu⟩ ((diff?_eq_none_iff.1 hd).not_addedAt _)
        | some d =>
          cases eq_delta_of_diff? hd
          simpa [hd] using ih hparent hc hu

/-- A path out of a tree passes one last group that the tree has. -/
theorem exists_last_of_at?_eq_none {g : Group} {path : List String} (h : g.at? path = none) :
    ∃ before name after, path = before ++ name :: after ∧ (g.at? before).isSome = true ∧
      g.at? (before ++ [name]) = none := by
  induction path generalizing g with
  | nil => cases h
  | cons step path ih =>
    rw [at?_cons] at h
    cases hg : g.groups.find? step with
    | none => exact ⟨[], step, path, rfl, rfl, by rw [List.nil_append, at?_cons, hg]; rfl⟩
    | some child =>
      rw [hg] at h
      obtain ⟨before, name, after, rfl, hbefore, hname⟩ := ih h
      refine ⟨step :: before, name, after, rfl, ?_, ?_⟩
      · rw [at?_cons, hg]
        exact hbefore
      · rw [List.cons_append, at?_cons, hg]
        exact hname

/-! ## What is named -/

/-- The two sets name the groups that change and those that come, and no others. -/
structure NamesChanges (current updated read write : Group) : Prop where
  read_iff : ∀ path, (read.at? path).isSome = true ↔ ChangedAt current updated path
  write_iff : ∀ path, (write.at? path).isSome = true ↔
    ChangedAt current updated path ∨ AddedAt current updated path
  /-- On the way to a new group, the first one that the old tree lacks is written whole. -/
  added : ∀ path, AddedAt current updated path → ∃ before name after u,
    path = before ++ name :: after ∧ (current.at? before).isSome = true ∧
      current.at? (before ++ [name]) = none ∧ updated.at? (before ++ [name]) = some u ∧
      write.at? (before ++ [name]) = some u.fresh
  unchanged : ∀ path c u, current.at? path = some c → updated.at? path = some u →
    c.SameContent u → read.at? path = none ∧ write.at? path = none
  /-- Whatever differs, comes or goes, both sets name the groups above it. -/
  above : ∀ path below c u, current.at? path = some c → updated.at? path = some u →
    (current.at? (path ++ below)).map fresh ≠ (updated.at? (path ++ below)).map fresh →
    (read.at? path).isSome = true ∧ (write.at? path).isSome = true

theorem namesChanges_delta {current updated : Group} (h : ¬ current.SameContent updated) :
    NamesChanges current updated (current.delta updated).read (current.delta updated).write where
  read_iff := isSome_at?_read_delta h
  write_iff := isSome_at?_write_delta h
  added path hadded := by
    obtain ⟨hc, u, hu⟩ := hadded
    obtain ⟨before, name, after, rfl, hbefore, hname⟩ := exists_last_of_at?_eq_none hc
    rw [← List.singleton_append, ← List.append_assoc, at?_append] at hu
    obtain ⟨v, hv, -⟩ := Option.bind_eq_some_iff.1 hu
    exact ⟨before, name, after, v, rfl, hbefore, hname, hv,
      at?_write_delta_of_parent hbefore hname hv⟩
  unchanged path c u hc hu hsame := by
    have hchanged : ¬ ChangedAt current updated path := by
      rintro ⟨c', u', hc', hu', hne⟩
      rw [hc] at hc'
      rw [hu] at hu'
      cases hc'
      cases hu'
      exact hne hsame
    have hadded : ¬ AddedAt current updated path := by
      rintro ⟨hc', -⟩
      rw [hc] at hc'
      cases hc'
    constructor
    · rw [← Option.not_isSome_iff_eq_none, isSome_at?_read_delta h]
      exact hchanged
    · rw [← Option.not_isSome_iff_eq_none, isSome_at?_write_delta h]
      exact not_or.2 ⟨hchanged, hadded⟩
  above path below c u hc hu hdiff := by
    have hchanged : ChangedAt current updated path := by
      refine ⟨c, u, hc, hu, fun hsame => hdiff ?_⟩
      rw [at?_append, at?_append, hc, hu]
      exact hsame.at? below
    exact ⟨(isSome_at?_read_delta h path).2 hchanged,
      (isSome_at?_write_delta h path).2 (.inl hchanged)⟩

/-- An update names exactly the groups that it has to. -/
theorem updateBetween_namesChanges {current updated : Group} {d : ConfigUpdate}
    (h : updateBetween current updated = .ok d) :
    ∃ read write, d.readSet = some read ∧ d.writeSet = some write ∧
      NamesChanges current updated read write := by
  obtain ⟨hne, rfl⟩ := updateBetween_eq_ok_iff.1 h
  exact ⟨_, _, rfl, rfl, namesChanges_delta hne⟩

/-- One group stays, one changes and one comes. -/
theorem updateBetween_namesChanges_three_orgs :
    updateBetween (setGroup (setGroup {} "Org1" {}) "Org2" {})
        (setGroup (setGroup (setGroup {} "Org1" {}) "Org2" { modPolicy := "Admins" }) "Org3"
          { version := 7 }) =
      .ok {
        readSet := some (setGroup {} "Org2" {})
        writeSet := some (setGroup (setGroup { version := 1 } "Org2"
          { version := 1, modPolicy := "Admins" }) "Org3" {}) } ∧
    ∃ read write, some (setGroup {} "Org2" {}) = some read ∧
      some (setGroup (setGroup { version := 1 } "Org2"
          { version := 1, modPolicy := "Admins" }) "Org3" {}) = some write ∧
      NamesChanges (setGroup (setGroup {} "Org1" {}) "Org2" {})
        (setGroup (setGroup (setGroup {} "Org1" {}) "Org2" { modPolicy := "Admins" }) "Org3"
          { version := 7 }) read write := by
  have h : updateBetween (setGroup (setGroup {} "Org1" {}) "Org2" {})
        (setGroup (setGroup (setGroup {} "Org1" {}) "Org2" { modPolicy := "Admins" }) "Org3"
          { version := 7 }) =
      .ok {
        readSet := some (setGroup {} "Org2" {})
        writeSet := some (setGroup (setGroup { version := 1 } "Org2"
          { version := 1, modPolicy := "Admins" }) "Org3" {}) } := rfl
  exact ⟨h, updateBetween_namesChanges h⟩

end ChannelConfig.Group
