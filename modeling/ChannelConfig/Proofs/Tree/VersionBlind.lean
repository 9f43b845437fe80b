import ChannelConfig.Proofs.Tree.Distinguish
import ChannelConfig.Proofs.Tree.Versions

/-! Updates of trees that agree up to versions. The versions of the desired tree are not looked at
(`SameContent.diff?_eq`); those of the current tree end up in the two sets and decide nothing
(`SameContent.rel_diff?`). Both go level by level, the child groups by induction. -/

set_option autoImplicit false

namespace ChannelConfig

/-! ## Leaves -/

section

variable {α : Type} [DecidableEq α] {current current' updated : NameMap (Leaf α)}

theorem find?_readLeaves_of_some (blank : α) {name : String} {u : Leaf α}
    (hu : updated.find? name = some u) :
    (readLeaves blank current updated).find? name = (current.find? name).map fun c =>
      if c.SameContent u then c else { version := c.version, content := blank } := by
  unfold readLeaves
  rw [SortedFrom.find?_filterMap]
  cases current.find? name with
  | none => rfl
  | some c => rw [Option.bind_some, Option.map_some, hu, Option.map_some]

theorem find?_readLeaves_of_none (blank : α) {name : String} (hu : updated.find? name = none) :
    (readLeaves blank current updated).find? name = none := by
  unfold readLeaves
  rw [SortedFrom.find?_filterMap, hu]
  cases current.find? name <;> rfl

/-- Leaves of the same content are read alike, but for their versions. -/
theorem SameLeaves.sameLeaves_readLeaves (h : SameLeaves current current') (blank : α)
    (updated : NameMap (Leaf α)) :
    SameLeaves (readLeaves blank current updated) (readLeaves blank current' updated) := by
  intro name
  cases hu : updated.find? name with
  | none => rw [find?_readLeaves_of_none blank hu, find?_readLeaves_of_none blank hu]
  | some u =>
    rw [find?_readLeaves_of_some blank hu, find?_readLeaves_of_some blank hu, Option.map_map,
      Option.map_map]
    apply h.map_eq name
    intro c c' hcc
    have hiff : c.SameContent u ↔ c'.SameContent u := by
      unfold Leaf.SameContent
      rw [hcc.1, hcc.2]
    by_cases hsame : c.SameContent u
    · simpa [hsame, hiff.1 hsame] using Leaf.fresh_eq_iff.2 hcc
    · simp [hsame, mt hiff.2 hsame, Leaf.fresh]

theorem sameLeaves_writeLeaves_writeLeaves (current current' updated : NameMap (Leaf α)) :
    SameLeaves (writeLeaves current updated) (writeLeaves current' updated) := by
  intro name
  rw [sameLeaves_writeLeaves current updated name, sameLeaves_writeLeaves current' updated name]

end

namespace Group

/-! ## Child groups -/

theorem rel_sameContent_iff {x y : Option Group} :
    Option.Rel SameContent x y ↔ x.map fresh = y.map fresh := by
  constructor
  · intro h
    cases h with
    | none => rfl
    | some h => exact congrArg some h
  · intro h
    cases x with
    | none => cases y with
      | none => exact .none
      | some b => cases h
    | some a => cases y with
      | none => cases h
      | some b => exact .some (Option.some.inj h)

theorem SameContent.rel_find? {a b : Group} (h : a.SameContent b) (name : String) :
    Option.Rel SameContent (a.groups.find? name) (b.groups.find? name) :=
  rel_sameContent_iff.2 ((sameContent_iff.1 h).2.2.2 name)

/-! ## Other versions of the desired tree -/

theorem SameContent.diff?_eq {current updated updated' : Group}
    (h : updated.SameContent updated') : current.diff? updated = current.diff? updated' := by
  induction current using Group.ind generalizing updated updated' with
  | step current ih =>
    apply diff?_eq_iff_sameStep.2
    constructor
    · exact h.sameLevel
    · exact ⟨fun hc => hc.trans h, fun hc => hc.trans h.symm⟩
    · intro name _
      exact (sameContent_iff.1 h).2.2.2 name
    · intro name c hc
      have hname := h.rel_find? name
      generalize updated.groups.find? name = x, updated'.groups.find? name = y at hname ⊢
      cases hname with
      | none => rfl
      | some huu => exact ih name c hc huu

/-! ## Other versions of the current tree -/

/-- The same is said of a group, but for versions. -/
structure Delta.SameContent (d d' : Delta) : Prop where
  read : d.read.SameContent d'.read
  write : d.write.SameContent d'.write

section

variable {x y : Option Delta}

theorem rel_map_read (h : Option.Rel Delta.SameContent x y) :
    Option.Rel Group.SameContent (x.map Delta.read) (y.map Delta.read) := by
  cases h with
  | none => exact .none
  | some h => exact .some h.read

theorem rel_map_write (h : Option.Rel Delta.SameContent x y) :
    Option.Rel Group.SameContent (x.map Delta.write) (y.map Delta.write) := by
  cases h with
  | none => exact .none
  | some h => exact .some h.write

end

section

variable {current current' : Group} (h : current.SameContent current')
  (ih : ∀ name c, current.groups.find? name = some c → ∀ {c'}, c.SameContent c' → ∀ u,
    Option.Rel Delta.SameContent (c.diff? u) (c'.diff? u))

include h ih

theorem SameContent.read_delta (updated : Group) :
    (current.delta updated).read.SameContent (current'.delta updated).read := by
  obtain ⟨-, hvalues, hpolicies, -⟩ := sameContent_iff.1 h
  apply sameContent_iff.2
  refine ⟨rfl, hvalues.sameLeaves_readLeaves _ _, hpolicies.sameLeaves_readLeaves _ _, ?_⟩
  intro name
  apply rel_sameContent_iff.1
  have hname := h.rel_find? name
  rw [find?_groups_read_delta, find?_groups_read_delta]
  generalize hc : current.groups.find? name = x, current'.groups.find? name = y at hname ⊢
  cases hname with
  | none => exact .none
  | some hcc =>
    cases updated.groups.find? name with
    | none => exact .none
    | some u => exact rel_map_read (ih name _ hc hcc u)

theorem SameContent.write_delta (updated : Group) :
    (current.delta updated).write.SameContent (current'.delta updated).write := by
  apply sameContent_iff.2
  refine ⟨rfl, sameLeaves_writeLeaves_writeLeaves _ _ _, sameLeaves_writeLeaves_writeLeaves _ _ _,
    ?_⟩
  intro name
  apply rel_sameContent_iff.1
  have hname := h.rel_find? name
  rw [find?_groups_write_delta, find?_groups_write_delta]
  cases updated.groups.find? name with
  | none => exact .none
  | some u =>
    generalize hc : current.groups.find? name = x, current'.groups.find? name = y at hname ⊢
    cases hname with
    | none => exact .some (.refl u.fresh)
    | some hcc => exact rel_map_write (ih name _ hc hcc u)

end

theorem SameContent.rel_diff? {current current' : Group} (h : current.SameContent current')
    (updated : Group) :
    Option.Rel Delta.SameContent (current.diff? updated) (current'.diff? updated) := by
  induction current using Group.ind generalizing current' updated with
  | step current ih =>
    by_cases hsame : current.SameContent updated
    · rw [diff?_eq_none_iff.2 hsame, diff?_eq_none_iff.2 (h.symm.trans hsame)]
      exact .none
    · have hsame' : ¬ current'.SameContent updated := fun h' => hsame (h.trans h')
      rw [diff?_eq_some hsame, diff?_eq_some hsame']
      exact .some ⟨h.read_delta ih updated, h.write_delta ih updated⟩

/-! ## Updates -/

/-- Versions decide nothing but versions: those of the desired tree leave the update as it is, and
those of the current tree leave everything in it but the versions of its entries. -/
theorem updateBetween_ignores_versions {current current' updated updated' : Group}
    (hcurrent : current.SameContent current') (hupdated : updated.SameContent updated') :
    updateBetween current updated = updateBetween current updated' ∧
    (updateBetween current updated = .error .noDifferences ∧
        updateBetween current' updated = .error .noDifferences ∨
      ∃ read write read' write',
        updateBetween current updated = .ok { readSet := some read, writeSet := some write } ∧
        updateBetween current' updated = .ok { readSet := some read', writeSet := some write' } ∧
        ∀ path, Option.Rel SameLevel (read.at? path) (read'.at? path) ∧
          Option.Rel SameLevel (write.at? path) (write'.at? path)) := by
  have hdiff := hcurrent.rel_diff? updated
  unfold updateBetween
  rw [← hupdated.diff?_eq]
  refine ⟨rfl, ?_⟩
  generalize current.diff? updated = x, current'.diff? updated = y at hdiff ⊢
  cases hdiff with
  | none => exact .inl ⟨rfl, rfl⟩
  | some hd =>
    refine .inr ⟨_, _, _, _, rfl, rfl, fun path => ⟨?_, ?_⟩⟩
    · exact sameContent_iff_at?.1 hd.read path
    · exact sameContent_iff_at?.1 hd.write path

/-- The tree with a past, under other versions. -/
def renumberedTree : Group := setGroup { version := 1, modPolicy := "Admins" } "Org1"
  { version := 7
    values := .ofList [("A", { version := 30, content := [1] }), ("B", { content := [7] })] }

/-- What is wanted of it, the last version there is among the versions. -/
def renumberedTreeWanted : Group := setGroup (setGroup { version := 2, modPolicy := "Admins" } "Org1"
  { version := 18446744073709551615
    values := .ofList [("A", { content := [2] }), ("B", { version := 3, content := [7] }),
      ("C", { version := 6, content := [3] })] }) "Org2" {}

theorem updateBetween_ignores_versions_renumbered :
    agedTree.SameContent renumberedTree ∧ agedTreeWanted.SameContent renumberedTreeWanted ∧
    updateBetween agedTree agedTreeWanted =
      .ok { readSet := some agedTreeRead, writeSet := some agedTreeWritten } ∧
    updateBetween agedTree agedTreeWanted = updateBetween agedTree renumberedTreeWanted ∧
    ∃ read write, updateBetween renumberedTree agedTreeWanted =
        .ok { readSet := some read, writeSet := some write } ∧
      ∀ path, Option.Rel SameLevel (agedTreeRead.at? path) (read.at? path) ∧
        Option.Rel SameLevel (agedTreeWritten.at? path) (write.at? path) := by
  have hcurrent : agedTree.SameContent renumberedTree := rfl
  have hupdated : agedTreeWanted.SameContent renumberedTreeWanted := rfl
  have h : updateBetween agedTree agedTreeWanted =
      .ok { readSet := some agedTreeRead, writeSet := some agedTreeWritten } := rfl
  obtain ⟨heq, hrest⟩ := updateBetween_ignores_versions hcurrent hupdated
  refine ⟨hcurrent, hupdated, h, heq, ?_⟩
  rcases hrest with ⟨hsame, -⟩ | ⟨read, write, read', write', hd, hd', hpaths⟩
  · rw [h] at hsame
    cases hsame
  · rw [h] at hd
    cases hd
    exact ⟨read', write', hd', hpaths⟩

end Group

end ChannelConfig
