import ChannelConfig.Proofs.Tree.Versions
import ChannelConfig.Proofs.Wire.Flat

/-! How deep updates nest. A configuration that was read keeps to the levels of reading
(`nesting_le_of_decode`), and neither set of an update nests deeper than the two trees it was made
from (`nesting_delta_le`): an entry that the update writes at a new version, and so cannot leave out,
is already written in one of them, since they differ there. So the update can be read in turn. -/

set_option autoImplicit false

namespace ChannelConfig

open Wire

/-! ## Reading configurations -/

instance : ShallowMessage Policy := .ofFields rfl (fun _ => rfl) (by simp)

instance : ShallowMessage ConfigValue := .ofFields rfl (fun _ => rfl) (by simp)

instance : ShallowMessage ConfigPolicy := .ofFields rfl (fun _ => rfl) (by simp)

namespace Group

/-- A group is read with its child groups two levels further down. -/
theorem staysWithin_codec (levels : Nat) : (Message.codec (M := Group)).StaysWithin levels := by
  induction levels using Nat.strongRecOn with
  | ind levels ih =>
    have hchild : ∀ left, levels = left + 1 → (message Group).StaysWithin left := by
      intro left hleft
      exact Codec.staysWithin_content fun left' hleft' => ih left' (by omega)
    have hfields : (fields (message Group)).StaysWithin levels :=
      ⟨Field.staysWithin_uint64, Field.staysWithin_map lawful_message hchild,
        Field.staysWithin_map_message, Field.staysWithin_map_message, Field.staysWithin_text,
        trivial⟩
    refine ⟨rfl, fun g bs g' hg hread => ?_⟩
    have hg : g.nesting ≤ levels := hg
    have hread : Group.merge levels g bs = .ok g' := hread
    show g'.nesting ≤ levels
    rw [nesting_eq] at hg ⊢
    rw [merge_eq] at hread
    obtain ⟨ts, hts, rfl⟩ := exists_of_map_eq_ok hread
    exact Fields.nesting_le_of_merge hfields hg hts

instance : ShallowMessage Group := ⟨staysWithin_codec⟩

end Group

instance : ShallowMessage Config := .ofFields rfl (fun _ => rfl) (by simp)

/-! ## Entries -/

/-- The levels that a message takes as the value of an entry: none if it is left out. -/
def entryLevels {M : Type} [Message M] (m : M) : Nat := (Field.single (message M)).nesting m

section

variable {M : Type} [Message M]

theorem levels_le_nesting (m : M) : entryLevels m ≤ nesting m + 1 := Field.nesting_single_le _ m

variable [LawfulMessage M]

theorem entryLevels_empty : entryLevels (Message.codec (M := M)).empty = 0 :=
  if_pos LawfulMessage.encode_empty

theorem entryLevels_of_ne {m : M} (h : m ≠ Message.codec.empty) :
    entryLevels m = nesting m + 1 := by
  refine if_neg fun hnil => h (encode_inj.1 ?_)
  exact Eq.trans hnil LawfulMessage.encode_empty.symm

/-- What replaces an entry takes no more levels if it nests no deeper, unless it is the first to be
written. -/
theorem entryLevels_le_of_nesting {m w : M} (hempty : m = Message.codec.empty →
    w = Message.codec.empty) (h : nesting w ≤ nesting m) : entryLevels w ≤ entryLevels m := by
  by_cases hm : m = Message.codec.empty
  · rw [hempty hm, entryLevels_empty]
    exact Nat.zero_le _
  · rw [entryLevels_of_ne hm]
    exact Nat.le_trans (levels_le_nesting w) (Nat.succ_le_succ h)

variable [ShallowMessage M]

/-- Of two entries that differ one is written, so there is a level for a value in either place. -/
theorem nesting_lt_of_entryLevels {a b : M} {n : Nat} (ha : entryLevels a < n)
    (hb : entryLevels b < n) (hne : a ≠ b) : nesting a + 1 < n ∧ nesting b + 1 < n := by
  have hzero : nesting (Message.codec (M := M)).empty = 0 := nesting_empty
  have hwritten : ∀ m : M, m ≠ Message.codec.empty → entryLevels m < n → nesting m + 1 < n := by
    intro m hm hlevels
    rwa [entryLevels_of_ne hm] at hlevels
  by_cases hempty : a = Message.codec.empty
  · subst hempty
    have := hwritten b hne.symm hb
    omega
  · refine ⟨hwritten a hempty ha, ?_⟩
    by_cases hempty' : b = Message.codec.empty
    · subst hempty'
      have := hwritten a hempty ha
      omega
    · exact hwritten b hempty' hb

end

/-! ## Leaves -/

section

variable {α : Type} [Message (Leaf α)] {blank : α}

/-- Leaves that nest as deep as their content, nothing being in the blank one. -/
structure NestsAsContent (α : Type) [Message (Leaf α)] (blank : α) : Prop where
  empty : (Message.codec (M := Leaf α)).empty = { content := blank }
  nesting : ∀ l l' : Leaf α, l.content = l'.content → nesting l = nesting l'

theorem nestsAsContent_value : NestsAsContent Bytes [] where
  empty := rfl
  nesting l l' _ := by
    rw [Nat.le_zero.1 (FlatMessage.nesting_le l), Nat.le_zero.1 (FlatMessage.nesting_le l')]

theorem nestsAsContent_policy : NestsAsContent (Option Policy) none where
  empty := rfl
  nesting l l' h := by
    show max 0 (max ((Field.optional (message Policy)).nesting l.content)
        (max (Field.text.nesting l.modPolicy) 0)) =
      max 0 (max ((Field.optional (message Policy)).nesting l'.content)
        (max (Field.text.nesting l'.modPolicy) 0))
    rw [Field.nesting_text, Field.nesting_text, h]

variable [LawfulMessage (Leaf α)]

theorem NestsAsContent.entryLevels_fresh_le (hα : NestsAsContent α blank) (l : Leaf α) :
    entryLevels l.fresh ≤ entryLevels l := by
  refine entryLevels_le_of_nesting (fun h => ?_) (Nat.le_of_eq (hα.nesting _ _ rfl))
  rw [h, hα.empty]
  rfl

/-- An update takes no more levels for a leaf than the two trees do. -/
theorem LeafSaid.entryLevels_lt [ShallowMessage (Leaf α)] (hα : NestsAsContent α blank)
    {current updated read write : Option (Leaf α)}
    (h : LeafSaid blank current updated read write) {n : Nat}
    (hcurrent : ∀ l, current = some l → entryLevels l < n)
    (hupdated : ∀ l, updated = some l → entryLevels l < n) :
    (∀ l, read = some l → entryLevels l < n) ∧ ∀ l, write = some l → entryLevels l < n := by
  cases h with
  | same hc => constructor <;> rintro l ⟨⟩ <;> exact hcurrent _ hc
  | @changed c u hc hu hne =>
    obtain ⟨hlt, hlt'⟩ := nesting_lt_of_entryLevels (hcurrent c hc) (hupdated u hu)
      (by rintro rfl; exact hne ⟨rfl, rfl⟩)
    constructor <;> rintro l ⟨⟩
    · -- the version that is read along may be there to write where the blank leaf is not
      have hblank := hα.nesting { version := c.version, content := blank } { content := blank } rfl
      rw [← hα.empty, nesting_empty] at hblank
      have := levels_le_nesting ({ version := c.version, content := blank } : Leaf α)
      omega
    · have hwritten := hα.nesting { u with version := c.version + 1 } u rfl
      have := levels_le_nesting { u with version := c.version + 1 }
      omega
  | @added u hc hu =>
    constructor <;> rintro l ⟨⟩
    exact Nat.lt_of_le_of_lt (hα.entryLevels_fresh_le u) (hupdated u hu)
  | nothing => constructor <;> rintro l ⟨⟩

end

/-! ## Groups -/

namespace Group

theorem nesting_le_iff {g : Group} {n : Nat} : g.nesting ≤ n ↔
    (∀ name child, g.groups.find? name = some child → entryLevels child < n) ∧
      (∀ name v, g.values.find? name = some v → entryLevels v < n) ∧
      ∀ name p, g.policies.find? name = some p → entryLevels p < n := by
  have hfields : g.nesting = max 0 (max ((Field.map (message Group)).nesting g.groups)
      (max ((Field.map (message ConfigValue)).nesting g.values)
        (max ((Field.map (message ConfigPolicy)).nesting g.policies)
          (max (Field.text.nesting g.modPolicy) 0)))) := nesting_eq g
  simp only [hfields, Field.nesting_text, Nat.max_le, Field.nesting_map_le_iff, Nat.zero_le,
    true_and, and_true]
  rfl

/-- Three levels suffice for the leaves, so that the child groups decide. -/
theorem nesting_le_of_children {g : Group} {n : Nat} (hn : 3 ≤ n)
    (hgroups : ∀ name child, g.groups.find? name = some child → child.nesting + 2 ≤ n) :
    g.nesting ≤ n := by
  refine nesting_le_iff.2 ⟨fun name child hc => ?_, fun name v _ => ?_, fun name p _ => ?_⟩
  · have hlevels : entryLevels child ≤ child.nesting + 1 := levels_le_nesting child
    have := hgroups name child hc
    omega
  · have := levels_le_nesting v
    have := FlatMessage.nesting_le v
    omega
  · have := levels_le_nesting p
    have := FlatMessage.nesting_le p
    omega

theorem entryLevels_fresh_le {g : Group} (h : g.fresh.nesting ≤ g.nesting) :
    entryLevels g.fresh ≤ entryLevels g := by
  refine entryLevels_le_of_nesting (fun hempty => ?_) h
  rw [hempty]
  rfl

theorem nesting_fresh_le (g : Group) : g.fresh.nesting ≤ g.nesting := by
  induction g using Group.ind with
  | step g ih =>
    obtain ⟨hgs, hvs, hps⟩ := nesting_le_iff.1 (Nat.le_refl g.nesting)
    refine nesting_le_iff.2 ⟨fun name child h => ?_, fun name v h => ?_, fun name p h => ?_⟩
    · rw [find?_groups_fresh] at h
      obtain ⟨c, hc, rfl⟩ := Option.map_eq_some_iff.1 h
      exact Nat.lt_of_le_of_lt (entryLevels_fresh_le (ih name c hc)) (hgs name c hc)
    · rw [find?_values_fresh] at h
      obtain ⟨l, hl, rfl⟩ := Option.map_eq_some_iff.1 h
      exact Nat.lt_of_le_of_lt (nestsAsContent_value.entryLevels_fresh_le l) (hvs name l hl)
    · rw [find?_policies_fresh] at h
      obtain ⟨l, hl, rfl⟩ := Option.map_eq_some_iff.1 h
      exact Nat.lt_of_le_of_lt (nestsAsContent_policy.entryLevels_fresh_le l) (hps name l hl)

/-- Neither set of an update nests deeper than the two trees. -/
theorem nesting_delta_le {current updated : Group} {n : Nat} (hcurrent : current.nesting ≤ n)
    (hupdated : updated.nesting ≤ n) :
    (current.delta updated).read.nesting ≤ n ∧ (current.delta updated).write.nesting ≤ n := by
  induction current using Group.ind generalizing updated n with
  | step current ih =>
    obtain ⟨hgs, hvs, hps⟩ := nesting_le_iff.1 hcurrent
    obtain ⟨hgs', hvs', hps'⟩ := nesting_le_iff.1 hupdated
    have hvalue := fun name => (leafSaid_leaves [] current.values updated.values name).entryLevels_lt
      nestsAsContent_value (hvs name) (hvs' name)
    have hpolicy := fun name =>
      (leafSaid_leaves none current.policies updated.policies name).entryLevels_lt
        nestsAsContent_policy (hps name) (hps' name)
    -- child groups that differ are written in one of the trees, which leaves a level for both sets
    have hchild : ∀ name c u d, current.groups.find? name = some c →
        updated.groups.find? name = some u → c.diff? u = some d →
        entryLevels d.read < n ∧ entryLevels d.write < n := by
      intro name c u d hc hu hd
      have hne : c ≠ u := by
        rintro rfl
        rw [diff?_eq_none_iff.2 (.refl c)] at hd
        cases hd
      cases eq_delta_of_diff? hd
      obtain ⟨hlt, hlt'⟩ : c.nesting + 1 < n ∧ u.nesting + 1 < n :=
        nesting_lt_of_entryLevels (hgs name c hc) (hgs' name u hu) hne
      obtain ⟨hread, hwrite⟩ : (c.delta u).read.nesting ≤ n - 2 ∧ (c.delta u).write.nesting ≤ n - 2 :=
        ih name c hc (by omega) (by omega)
      have := levels_le_nesting (c.delta u).read
      have := levels_le_nesting (c.delta u).write
      have : Wire.nesting (c.delta u).read = (c.delta u).read.nesting := rfl
      have : Wire.nesting (c.delta u).write = (c.delta u).write.nesting := rfl
      omega
    constructor
    · refine nesting_le_iff.2 ⟨fun name child h => ?_, fun name => (hvalue name).1,
        fun name => (hpolicy name).1⟩
      rw [find?_groups_read_delta] at h
      obtain ⟨c, hc, h⟩ := Option.bind_eq_some_iff.1 h
      obtain ⟨u, hu, h⟩ := Option.bind_eq_some_iff.1 h
      obtain ⟨d, hd, rfl⟩ := Option.map_eq_some_iff.1 h
      exact (hchild name c u d hc hu hd).1
    · refine nesting_le_iff.2 ⟨fun name child h => ?_, fun name => (hvalue name).2,
        fun name => (hpolicy name).2⟩
      rw [find?_groups_write_delta] at h
      obtain ⟨u, hu, h⟩ := Option.bind_eq_some_iff.1 h
      cases hc : current.groups.find? name with
      | none =>
        rw [hc] at h
        cases h
        exact Nat.lt_of_le_of_lt (entryLevels_fresh_le (nesting_fresh_le u)) (hgs' name u hu)
      | some c =>
        rw [hc] at h
        obtain ⟨d, hd, rfl⟩ := Option.map_eq_some_iff.1 h
        exact (hchild name c u d hc hu hd).2

end Group

/-! ## Updates -/

theorem Config.nesting_le_iff {c : Config} {n : Nat} : nesting c ≤ n ↔
    ∀ g, c.channelGroup = some g → g.nesting + 1 ≤ n := by
  show max 0 (max ((Field.optional (message Group)).nesting c.channelGroup) 0) ≤ n ↔ _
  simp only [Nat.max_le, Field.nesting_optional_le_iff, Nat.zero_le, true_and, and_true]
  rfl

theorem ConfigUpdate.nesting_le {d : ConfigUpdate} {n : Nat}
    (hread : ∀ g, d.readSet = some g → g.nesting + 1 ≤ n)
    (hwrite : ∀ g, d.writeSet = some g → g.nesting + 1 ≤ n) (hdata : d.isolatedData = .nil) :
    nesting d ≤ n := by
  show max (Field.text.nesting d.channelId) (max ((Field.optional (message Group)).nesting d.readSet)
    (max ((Field.optional (message Group)).nesting d.writeSet)
      (max ((Field.map .bytes).nesting d.isolatedData) 0))) ≤ n
  simp only [Nat.max_le, Field.nesting_text, Field.nesting_optional_le_iff, hdata]
  exact ⟨Nat.zero_le _, hread, hwrite, Nat.zero_le _, Nat.zero_le _⟩

theorem Config.updateTo_eq_ok_iff {current updated : Config} {d : ConfigUpdate} :
    current.updateTo updated = .ok d ↔ ∃ c u, current.channelGroup = some c ∧
      updated.channelGroup = some u ∧ updateBetween c u = .ok d := by
  rw [updateTo]
  cases current.channelGroup <;> cases updated.channelGroup <;> simp [Result.invalid]

/-- An update of configurations that were read can be read in turn, and gives itself back. -/
theorem Config.updateTo_reads_back {bs bs' : Bytes} {current updated : Config} {d : ConfigUpdate}
    (hcurrent : decode bs = .ok current) (hupdated : decode bs' = .ok updated)
    (h : current.updateTo updated = .ok d) (hlength : (encode d).length < UInt64.size) :
    decode (encode d) = .ok d := by
  obtain ⟨c, u, hc, hu, h⟩ := updateTo_eq_ok_iff.1 h
  obtain ⟨-, rfl⟩ := Group.updateBetween_eq_ok_iff.1 h
  have hc' := Config.nesting_le_iff.1 (nesting_le_of_decode hcurrent) c hc
  have hu' := Config.nesting_le_iff.1 (nesting_le_of_decode hupdated) u hu
  have hsets := Group.nesting_delta_le (Nat.le_pred_of_lt hc') (Nat.le_pred_of_lt hu')
  rw [decode_encode_eq hlength, if_pos]
  refine ConfigUpdate.nesting_le ?_ ?_ rfl
  · rintro g ⟨⟩
    exact Nat.succ_le_succ hsets.1
  · rintro g ⟨⟩
    exact Nat.succ_le_succ hsets.2

/-- A policy below so many groups, each in the one before. -/
def Group.shaft (policy : ConfigPolicy) : (depth : Nat) → Group
  | 0 => { version := policy.version, policies := .ofList [("p", policy)] }
  | depth + 1 => setGroup { version := policy.version } "a" (shaft policy depth)

/-- A configuration with a policy as deep in it as can be read. -/
def Config.ofShaft (content : Option Policy) : Config where
  channelGroup := some (.shaft { content } 48)

/-- What changes a policy that has nothing, and so was left out, to one with a content. -/
def ConfigUpdate.ofShaft : ConfigUpdate where
  readSet := some (.shaft { content := none } 48)
  writeSet := some (.shaft { version := 1, content := some {} } 48)

theorem Config.updateTo_reads_back_last_level : nesting (Config.ofShaft (some {})) = maxLevels ∧
    (Config.ofShaft none).updateTo (.ofShaft (some {})) = .ok .ofShaft ∧
    decode (encode ConfigUpdate.ofShaft) = .ok ConfigUpdate.ofShaft := by
  have hfits : (encode (Config.ofShaft none)).length < UInt64.size ∧
      (encode (Config.ofShaft (some {}))).length < UInt64.size ∧
      (encode ConfigUpdate.ofShaft).length < UInt64.size := by
    decide +kernel
  have hlevels : nesting (Config.ofShaft none) ≤ maxLevels ∧
      nesting (Config.ofShaft (some {})) = maxLevels := by
    decide +kernel
  have hcurrent : decode (encode (Config.ofShaft none)) = .ok (Config.ofShaft none) := by
    rw [decode_encode_eq hfits.1, if_pos hlevels.1]
  have hupdated : decode (encode (Config.ofShaft (some {}))) = .ok (Config.ofShaft (some {})) := by
    rw [decode_encode_eq hfits.2.1, if_pos (Nat.le_of_eq hlevels.2)]
  have hupdate : (Config.ofShaft none).updateTo (.ofShaft (some {})) = .ok .ofShaft := by
    refine updateTo_eq_ok_iff.2 ⟨_, _, rfl, rfl, Group.updateBetween_eq_ok_iff.2 ⟨?_, ?_⟩⟩
    · rw [Group.SameContent]
      decide +kernel
    · decide +kernel
  exact ⟨hlevels.2, hupdate, updateTo_reads_back hcurrent hupdated hupdate hfits.2.2⟩

end ChannelConfig
