import ChannelConfig.Proofs.Tree.Content

/-! What an update says of a group, by look-up. `diff?_eq_none_iff`: it says nothing exactly of
groups of the same content. Otherwise it says what `delta` holds, and `find?_groups_read_delta` and
`find?_groups_write_delta` give the child groups of its two sets. -/

set_option autoImplicit false

namespace ChannelConfig

theorem SortedFrom.exceeds_eq_false_iff {V W : Type} {lo : Option String} (m : SortedFrom V lo)
    (n : NameMap W) :
    m.exceeds n = false ↔ ∀ name, n.find? name = none → m.find? name = none := by
  simp only [exceeds, List.any_eq_false, mem_names_iff, Bool.not_eq_true, Bool.not_eq_false',
    contains_iff]
  constructor
  · intro h name hn
    cases hm : m.find? name with
    | none => rfl
    | some v =>
      obtain ⟨w, hw⟩ := h name ⟨v, hm⟩
      rw [hn] at hw
      cases hw
  · rintro h name ⟨v, hv⟩
    cases hn : n.find? name with
    | none =>
      rw [h name hn] at hv
      cases hv
    | some w => exact ⟨w, rfl⟩

/-! ## Leaves -/

section

variable {α : Type} [DecidableEq α]

theorem find?_writeLeaves (current updated : NameMap (Leaf α)) (name : String) :
    (writeLeaves current updated).find? name = (updated.find? name).map fun u =>
      match current.find? name with
      | none => u.fresh
      | some c => if c.SameContent u then c else { u with version := c.version + 1 } :=
  SortedFrom.find?_map _ _ _

/-- What is written has the content of the new leaves. -/
theorem sameLeaves_writeLeaves (current updated : NameMap (Leaf α)) :
    SameLeaves (writeLeaves current updated) updated := by
  intro name
  rw [find?_writeLeaves, Option.map_map]
  cases updated.find? name with
  | none => rfl
  | some u =>
    refine congrArg some ?_
    simp only [Function.comp_apply]
    cases current.find? name with
    | none => rfl
    | some c =>
      by_cases h : c.SameContent u
      · simp only [if_pos h]
        exact Leaf.fresh_eq_iff.2 h
      · simp only [if_neg h]
        rfl

theorem readLeaves_self (blank : α) (m : NameMap (Leaf α)) : readLeaves blank m m = m := by
  refine SortedFrom.ext fun name => ?_
  rw [readLeaves, SortedFrom.find?_filterMap]
  cases m.find? name with
  | none => rfl
  | some c => rw [Option.bind_some, Option.map_some, if_pos ⟨rfl, rfl⟩]

theorem writeLeaves_self (m : NameMap (Leaf α)) : writeLeaves m m = m := by
  refine SortedFrom.ext fun name => ?_
  rw [find?_writeLeaves]
  cases m.find? name with
  | none => rfl
  | some c =>
    simp only [Option.map_some]
    rw [if_pos ⟨rfl, rfl⟩]

/-- A leaf that only the new tree has is not read. -/
theorem readLeaves_insert (blank : α) {m : NameMap (Leaf α)} {name : String}
    (hname : m.find? name = none) (l : Leaf α) : readLeaves blank m (m.insert name l) = m := by
  refine SortedFrom.ext fun key => ?_
  rw [readLeaves, SortedFrom.find?_filterMap]
  cases hkey : m.find? key with
  | none => rfl
  | some c =>
    have hne : name ≠ key := by
      rintro rfl
      rw [hname] at hkey
      cases hkey
    rw [Option.bind_some, SortedFrom.find?_insert, if_neg hne, hkey, Option.map_some,
      if_pos ⟨rfl, rfl⟩]

theorem writeLeaves_insert {m : NameMap (Leaf α)} {name : String} (hname : m.find? name = none)
    (l : Leaf α) : writeLeaves m (m.insert name l) = m.insert name l.fresh := by
  refine SortedFrom.ext fun key => ?_
  rw [find?_writeLeaves, SortedFrom.find?_insert, SortedFrom.find?_insert]
  by_cases hkey : name = key
  · subst hkey
    rw [if_pos rfl, if_pos rfl, Option.map_some, hname]
  · rw [if_neg hkey, if_neg hkey, ← find?_writeLeaves, writeLeaves_self]

theorem writeLeaves_eq_iff {current left right : NameMap (Leaf α)} :
    writeLeaves current left = writeLeaves current right ↔ SameLeaves left right := by
  constructor
  · intro h name
    rw [← sameLeaves_writeLeaves current left name, h, sameLeaves_writeLeaves]
  · intro h
    refine SortedFrom.ext fun name => ?_
    rw [find?_writeLeaves, find?_writeLeaves]
    refine h.map_eq name fun u v huv => ?_
    obtain ⟨hcontent, hmod⟩ := huv
    cases u
    cases v
    cases hcontent
    cases hmod
    rfl

theorem SameLeaves.readLeaves_eq {left right : NameMap (Leaf α)} (h : SameLeaves left right)
    (blank : α) (current : NameMap (Leaf α)) :
    readLeaves blank current left = readLeaves blank current right := by
  refine SortedFrom.ext fun name => ?_
  rw [readLeaves, readLeaves, SortedFrom.find?_filterMap, SortedFrom.find?_filterMap]
  refine congrArg _ (funext fun c => h.map_eq name fun u v huv => ?_)
  have hiff : c.SameContent u ↔ c.SameContent v := by
    rw [Leaf.SameContent, Leaf.SameContent, huv.1, huv.2]
  simp only [hiff]

theorem leavesChanged_eq_false_iff (current updated : NameMap (Leaf α)) :
    leavesChanged current updated = false ↔ SameLeaves current updated := by
  rw [leavesChanged, Bool.or_eq_false_iff, SortedFrom.exceeds_eq_false_iff,
    ← Bool.not_eq_true (List.any _ _), SortedFrom.any_toList_iff]
  constructor
  · rintro ⟨hgone, hsame⟩ name
    cases hu : updated.find? name with
    | none => rw [hgone name hu]
    | some u =>
      cases hc : current.find? name with
      | none => exact absurd ⟨name, u, hu, by simp only [hc]⟩ hsame
      | some c =>
        refine congrArg some (Leaf.fresh_eq_iff.2 (Decidable.byContradiction fun hne => ?_))
        exact hsame ⟨name, u, hu, by simpa only [hc, Bool.not_eq_true', decide_eq_false_iff_not]⟩
  · intro h
    refine ⟨fun name hu => ?_, ?_⟩
    · have := h name
      rw [hu, Option.map_none, Option.map_eq_none_iff] at this
      exact this
    · rintro ⟨name, u, hu, hchanged⟩
      have hname := h name
      rw [hu] at hname
      obtain ⟨c, hc, hcu⟩ := Option.map_eq_some_iff.1 hname
      have hsame := Leaf.fresh_eq_iff.1 hcu
      simp only [hc, Bool.not_eq_true', decide_eq_false_iff_not] at hchanged
      exact hchanged hsame

end

namespace Group

/-! ## One level -/

/-- The child groups that only the new tree has, as they are written. -/
def newGroups (current updated : Group) : NameMap Group :=
  updated.groups.filterMap fun name u =>
    if current.groups.contains name then none else some u.fresh

/-- Whether something at or below the group changes. -/
def differs (current updated : Group) : Bool :=
  leavesChanged current.values updated.values || leavesChanged current.policies updated.policies ||
    current.groups.exceeds updated.groups || !(newGroups current updated).isEmpty ||
    !(diffChildren current.groups updated.groups).isEmpty ||
    current.modPolicy ≠ updated.modPolicy

/-- What an update says of a group of which it says anything. -/
def delta (current updated : Group) : Delta where
  read := {
    version := current.version
    groups := (diffChildren current.groups updated.groups).map fun _ d => d.read
    values := readLeaves [] current.values updated.values
    policies := readLeaves none current.policies updated.policies }
  write := {
    version := current.version + 1
    groups := ((diffChildren current.groups updated.groups).map fun _ d => d.write).overlay
      (newGroups current updated)
    values := writeLeaves current.values updated.values
    policies := writeLeaves current.policies updated.policies
    modPolicy := updated.modPolicy }

theorem diff?_eq (current updated : Group) :
    current.diff? updated =
      if current.differs updated then some (current.delta updated) else none := by
  cases current
  rw [diff?]
  rfl

theorem eq_delta_of_diff? {current updated : Group} {d : Delta}
    (h : current.diff? updated = some d) : d = current.delta updated := by
  rw [diff?_eq] at h
  split at h
  · cases h
    rfl
  · cases h

/-! ## Child groups -/

theorem find?_diffChildren (updated : NameMap Group) (name : String) :
    {lo : Option String} → (m : SortedFrom Group lo) →
    (diffChildren m updated).find? name =
      (m.find? name).bind fun c => (updated.find? name).bind (diff? c)
  | _, .nil => rfl
  | _, .cons n _ c rest => by
    have ih := find?_diffChildren updated name rest
    rw [diffChildren]
    by_cases hn : n = name
    · subst hn
      rw [SortedFrom.find?_eq_none_of_le rest (String.le_refl n)] at ih
      rw [SortedFrom.find?_cons_self, Option.bind_some]
      split
      · next hd => rw [SortedFrom.find?_cons_self, hd]
      · next hd => rw [SortedFrom.find?_relax, hd, ih, Option.bind_none]
    · rw [SortedFrom.find?_cons_of_ne hn]
      split
      · rw [SortedFrom.find?_cons_of_ne hn, ih]
      · rw [SortedFrom.find?_relax, ih]

theorem find?_newGroups (current updated : Group) (name : String) :
    (newGroups current updated).find? name =
      match current.groups.find? name with
      | none => (updated.groups.find? name).map fresh
      | some _ => none := by
  rw [newGroups, SortedFrom.find?_filterMap]
  cases hc : current.groups.find? name <;> cases updated.groups.find? name <;>
    simp [SortedFrom.contains, hc]

theorem find?_groups_read_delta (current updated : Group) (name : String) :
    (current.delta updated).read.groups.find? name = (current.groups.find? name).bind fun c =>
      (updated.groups.find? name).bind fun u => (c.diff? u).map Delta.read := by
  simp only [delta, SortedFrom.find?_map, find?_diffChildren, Option.map_bind, Function.comp_def]

/-- A child group of both trees is written as its own delta says, one of the new tree only is
written whole. -/
theorem find?_groups_write_delta (current updated : Group) (name : String) :
    (current.delta updated).write.groups.find? name = (updated.groups.find? name).bind fun u =>
      match current.groups.find? name with
      | none => some u.fresh
      | some c => (c.diff? u).map Delta.write := by
  simp only [delta, SortedFrom.find?_overlay, SortedFrom.find?_map, find?_diffChildren,
    find?_newGroups]
  cases updated.groups.find? name <;> cases current.groups.find? name <;> simp

/-! ## No difference -/

theorem isEmpty_newGroups_iff (current updated : Group) :
    (newGroups current updated).isEmpty = true ↔
      ∀ name, current.groups.find? name = none → updated.groups.find? name = none := by
  rw [SortedFrom.isEmpty_iff]
  refine forall_congr' fun name => ?_
  rw [find?_newGroups]
  cases updated.groups.find? name with
  | none => cases current.groups.find? name <;> simp
  | some u => cases current.groups.find? name <;> simp

theorem isEmpty_diffChildren_iff (current updated : Group) :
    (diffChildren current.groups updated.groups).isEmpty = true ↔
      ∀ name c u, current.groups.find? name = some c → updated.groups.find? name = some u →
        c.diff? u = none := by
  rw [SortedFrom.isEmpty_iff]
  refine forall_congr' fun name => ?_
  rw [find?_diffChildren]
  cases current.groups.find? name <;> cases updated.groups.find? name <;> simp

/-- An update says nothing of a group exactly if both trees have it with the same content. -/
theorem diff?_eq_none_iff {current updated : Group} :
    current.diff? updated = none ↔ current.SameContent updated := by
  induction current using Group.ind generalizing updated with
  | step current ih =>
    have hlevel : current.diff? updated = none ↔ current.differs updated = false := by
      rw [diff?_eq]
      cases current.differs updated <;> simp
    rw [hlevel, sameContent_iff, ← leavesChanged_eq_false_iff, ← leavesChanged_eq_false_iff]
    simp only [differs, Bool.or_eq_false_iff, Bool.not_eq_false', SortedFrom.exceeds_eq_false_iff,
      isEmpty_newGroups_iff, isEmpty_diffChildren_iff, decide_eq_false_iff_not, Decidable.not_not]
    constructor
    · rintro ⟨⟨⟨⟨⟨hvs, hps⟩, hgone⟩, hnew⟩, hboth⟩, hm⟩
      refine ⟨hm, hvs, hps, fun name => ?_⟩
      cases hc : current.groups.find? name with
      | none => rw [hnew name hc]
      | some c =>
        cases hu : updated.groups.find? name with
        | none =>
          rw [hgone name hu] at hc
          cases hc
        | some u => exact congrArg some ((ih name c hc).1 (hboth name c u hc hu))
    · rintro ⟨hm, hvs, hps, hgs⟩
      refine ⟨⟨⟨⟨⟨hvs, hps⟩, fun name hu => ?_⟩, fun name hc => ?_⟩, fun name c u hc hu => ?_⟩, hm⟩
      · have := hgs name
        rwa [hu, Option.map_none, Option.map_eq_none_iff] at this
      · have := (hgs name).symm
        rwa [hc, Option.map_none, Option.map_eq_none_iff] at this
      · have := hgs name
        rw [hc, hu] at this
        exact (ih name c hc).2 (Option.some.inj this)

/-- A child group that is the same in both trees is in neither set. -/
theorem find?_groups_delta_of_eq {current updated : Group} {name : String}
    (h : current.groups.find? name = updated.groups.find? name) :
    (current.delta updated).read.groups.find? name = none ∧
      (current.delta updated).write.groups.find? name = none := by
  rw [find?_groups_read_delta, find?_groups_write_delta, h]
  cases updated.groups.find? name with
  | none => exact ⟨rfl, rfl⟩
  | some c => simp [diff?_eq_none_iff.2 (SameContent.refl c)]

/-- If a tree differs in one child group only, the update says of that group what differs, and
repeats the leaves of the root. -/
theorem delta_setGroup {g child old : Group} {name : String} {d : Delta}
    (hchild : g.groups.find? name = some child) (hd : old.diff? child = some d) :
    (g.setGroup name old).delta g = {
      read := { g with groups := .ofList [(name, d.read)], modPolicy := "" }
      write := { g with version := g.version + 1, groups := .ofList [(name, d.write)] } } := by
  have hold : (g.setGroup name old).groups.find? name = some old := by
    rw [find?_groups_setGroup, if_pos rfl]
  have hgroups : ∀ key,
      ((g.setGroup name old).delta g).read.groups.find? key =
        (SortedFrom.ofList [(name, d.read)]).find? key ∧
      ((g.setGroup name old).delta g).write.groups.find? key =
        (SortedFrom.ofList [(name, d.write)]).find? key := by
    intro key
    rw [SortedFrom.find?_ofList_singleton, SortedFrom.find?_ofList_singleton]
    by_cases hkey : name = key
    · subst hkey
      rw [if_pos rfl, if_pos rfl, find?_groups_read_delta, find?_groups_write_delta, hold, hchild]
      show (old.diff? child).map Delta.read = some d.read ∧
        (old.diff? child).map Delta.write = some d.write
      rw [hd]
      exact ⟨rfl, rfl⟩
    · rw [if_neg hkey, if_neg hkey]
      refine find?_groups_delta_of_eq ?_
      rw [find?_groups_setGroup, if_neg hkey]
  have hread : ((g.setGroup name old).delta g).read =
      { g with groups := .ofList [(name, d.read)], modPolicy := "" } := by
    refine ext_of_find? rfl rfl (fun key => (hgroups key).1) (fun key => ?_) (fun key => ?_)
    · exact congrArg _ (readLeaves_self [] g.values)
    · exact congrArg _ (readLeaves_self none g.policies)
  have hwrite : ((g.setGroup name old).delta g).write =
      { g with version := g.version + 1, groups := .ofList [(name, d.write)] } := by
    refine ext_of_find? rfl rfl (fun key => (hgroups key).2) (fun key => ?_) (fun key => ?_)
    · exact congrArg _ (writeLeaves_self g.values)
    · exact congrArg _ (writeLeaves_self g.policies)
  rw [← hread, ← hwrite]

theorem diff?_eq_some {current updated : Group} (h : ¬ current.SameContent updated) :
    current.diff? updated = some (current.delta updated) := by
  rw [← diff?_eq_none_iff] at h
  obtain ⟨d, hd⟩ := Option.ne_none_iff_exists'.1 h
  rw [hd, eq_delta_of_diff? hd]

/-- The update between two trees, if there is one. -/
theorem updateBetween_eq_ok_iff {current updated : Group} {d : ConfigUpdate} :
    updateBetween current updated = .ok d ↔ ¬ current.SameContent updated ∧
      d = { readSet := some (current.delta updated).read,
            writeSet := some (current.delta updated).write } := by
  rw [← diff?_eq_none_iff, updateBetween]
  cases h : current.diff? updated with
  | none => simp
  | some delta =>
    rw [eq_delta_of_diff? h]
    simp [eq_comm]

/-- If the child groups are the same, neither set has any. -/
theorem delta_of_groups_eq {current updated : Group} (h : current.groups = updated.groups) :
    current.delta updated = {
      read := {
        version := current.version
        values := readLeaves [] current.values updated.values
        policies := readLeaves none current.policies updated.policies }
      write := {
        version := current.version + 1
        values := writeLeaves current.values updated.values
        policies := writeLeaves current.policies updated.policies
        modPolicy := updated.modPolicy } } := by
  have hgroups : ∀ name, (current.delta updated).read.groups.find? name = none ∧
      (current.delta updated).write.groups.find? name = none :=
    fun name => find?_groups_delta_of_eq (congrArg (SortedFrom.find? name) h)
  have hread : (current.delta updated).read.groups = .nil :=
    SortedFrom.ext fun name => (hgroups name).1
  have hwrite : (current.delta updated).write.groups = .nil :=
    SortedFrom.ext fun name => (hgroups name).2
  rw [delta] at hread hwrite ⊢
  dsimp only at hread hwrite
  rw [hread, hwrite]

/-- A group that gains one value is read as it is, and the value is written besides. -/
theorem updateBetween_setValue {g : Group} {name : String} (hname : g.values.find? name = none)
    (content : Bytes) (modPolicy : String) :
    updateBetween g (g.setValue name content modPolicy) = .ok {
      readSet := some { g with groups := .nil, modPolicy := "" }
      writeSet := some
        { g.setValue name content modPolicy with version := g.version + 1, groups := .nil } } := by
  have hdiffers : ¬ g.SameContent (g.setValue name content modPolicy) := by
    intro hsame
    have hvalues := (sameContent_iff.1 hsame).2.1 name
    rw [hname, setValue, SortedFrom.find?_insert, if_pos rfl] at hvalues
    cases hvalues
  have hgroups : g.groups = (g.setValue name content modPolicy).groups := rfl
  rw [updateBetween_eq_ok_iff, and_iff_right hdiffers, delta_of_groups_eq hgroups, setValue]
  dsimp only
  rw [readLeaves_insert [] hname, readLeaves_self, writeLeaves_insert hname, writeLeaves_self]
  rfl

end Group

end ChannelConfig
