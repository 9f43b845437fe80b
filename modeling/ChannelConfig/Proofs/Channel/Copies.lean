import ChannelConfig.Proofs.Channel.Sections
import ChannelConfig.Proofs.Tree.Distinguish

/-! The groups of one organization in the sections of a profile. Each section adds at most one value
of its own to what the organization has in a consortium (`Group.Extends`), so the update from one to
the other brings that value and nothing else, and there is none without it. -/

set_option autoImplicit false

namespace ChannelConfig

/-! ## One value more -/

namespace Group

variable {g base : Group} {p : Prop} {name : String} {content : Bytes}

/-- The group is another one with a value that this lacks, exactly if `p` holds; otherwise the two
are equal. -/
structure Extends (g base : Group) (p : Prop) (name : String) (content : Bytes) : Prop where
  lacks : base.values.find? name = none
  same_iff : g = base ↔ ¬ p
  added_iff : g = base.setValue name content adminsPolicy ↔ p

theorem ne_setValue (h : base.values.find? name = none) (content : Bytes) (modPolicy : String) :
    base ≠ base.setValue name content modPolicy := by
  intro heq
  rw [heq, setValue, SortedFrom.find?_insert, if_pos rfl] at h
  cases h

theorem extends_of_not (h : base.values.find? name = none) (hp : ¬ p) (content : Bytes) :
    base.Extends base p name content where
  lacks := h
  same_iff := iff_of_true rfl hp
  added_iff := iff_of_false (ne_setValue h content adminsPolicy) hp

theorem extends_setValue (h : base.values.find? name = none) (hp : p) (content : Bytes) :
    (base.setValue name content adminsPolicy).Extends base p name content where
  lacks := h
  same_iff := iff_of_false (ne_setValue h content adminsPolicy).symm (not_not_intro hp)
  added_iff := iff_of_true rfl hp

end Group

namespace Organization

variable {loader : MaterialLoader} {o : Organization} {g c : Group}

/-! ## What a section adds -/

/-- A section takes no part in whether there is a group, and nothing is added to a foreign one. -/
theorem groupWith_eq_map (extras : Group → Group) (loader : MaterialLoader) (o : Organization) :
    o.groupWith extras loader =
      (o.consortiumGroup loader).map fun g => if o.skipAsForeign then g else extras g := by
  rw [consortiumGroup, groupWith, groupWith]
  cases o.skipAsForeign with
  | true => rfl
  | false => cases o.memberGroup loader <;> rfl

/-- In a consortium an organization has no value but its MSP. -/
theorem Makes.find?_values {key : String} (h : o.Makes loader [] g) (hkey : key ≠ "MSP") :
    g.values.find? key = none := by
  cases h with
  | foreign _ made =>
    rw [made.values]
    rfl
  | member m msp _ _ _ _ made =>
    have hmsp : (StandardValue.msp msp).key ≠ key := hkey.symm
    rw [made.values]
    simp [hmsp]

theorem Makes.modPolicy_eq {own : List StandardValue} (h : o.Makes loader own g) :
    g.modPolicy = adminsPolicy := by
  cases h with
  | foreign _ made => exact made.modPolicy
  | member _ _ _ _ _ _ made => exact made.modPolicy

/-- A group to which a section adds one value if `q` holds. -/
theorem extends_groupWith {q : Prop} [Decidable q] (v : StandardValue) (hkey : v.key ≠ "MSP")
    (hc : o.consortiumGroup loader = .ok c) :
    ∃ g, o.groupWith (fun g => g.withValueIf q v) loader = .ok g ∧
      g.Extends c (o.skipAsForeign = false ∧ q) v.key v.encode := by
  have hlacks := (makes_of_consortiumGroup hc).find?_values hkey
  rw [groupWith_eq_map, hc]
  refine ⟨if o.skipAsForeign then c else c.withValueIf q v, rfl, ?_⟩
  by_cases hadds : o.skipAsForeign = false ∧ q
  · rw [if_neg (by simp [hadds.1]), Group.withValueIf, if_pos hadds.2]
    exact Group.extends_setValue hlacks hadds _
  · have hsame : (if o.skipAsForeign then c else c.withValueIf q v) = c := by
      cases hforeign : o.skipAsForeign with
      | true => rfl
      | false => exact if_neg fun hq => hadds ⟨hforeign, hq⟩
    rw [hsame]
    exact Group.extends_of_not hlacks hadds _

/-! ## The copies of an organization -/

/-- The groups of an organization in a consortium, in the application and in the ordering service
are made together or not at all. The last two have at most one value more than the first, and this
value is all that an update from the first to the second brings. -/
theorem copies_differ_by_extras (loader : MaterialLoader) (o : Organization) :
    (∃ e, o.consortiumGroup loader = .error e ∧ o.applicationGroup loader = .error e ∧
      o.ordererGroup loader = .error e) ∨
    ∃ c a r, o.consortiumGroup loader = .ok c ∧ o.applicationGroup loader = .ok a ∧
      o.ordererGroup loader = .ok r ∧
      a.Extends c (o.skipAsForeign = false ∧ o.anchorPeers ≠ []) "AnchorPeers"
        (Wire.encode { anchorPeers := o.anchorPeers : AnchorPeers }) ∧
      r.Extends c (o.skipAsForeign = false ∧ o.ordererEndpoints ≠ []) "Endpoints"
        (Wire.encode { addresses := o.ordererEndpoints : Endpoints }) ∧
      updateBetween c a =
        if o.skipAsForeign = true ∨ o.anchorPeers = [] then .error .noDifferences
        else .ok {
          readSet := some { version := 0, values := c.values, policies := c.policies }
          writeSet := some {
            version := 1
            values := c.values.insert "AnchorPeers" {
              version := 0
              content := Wire.encode { anchorPeers := o.anchorPeers : AnchorPeers }
              modPolicy := "Admins" }
            policies := c.policies
            modPolicy := "Admins" } } := by
  cases hc : o.consortiumGroup loader with
  | error e =>
    refine .inl ⟨e, rfl, ?_, ?_⟩
    · rw [applicationGroup, groupWith_eq_map, hc]
      rfl
    · rw [ordererGroup, groupWith_eq_map, hc]
      rfl
  | ok c =>
    obtain ⟨a, ha, hanchors⟩ := extends_groupWith (q := o.anchorPeers ≠ [])
      (.anchorPeers { anchorPeers := o.anchorPeers }) (show "AnchorPeers" ≠ "MSP" by decide) hc
    obtain ⟨r, hr, hendpoints⟩ := extends_groupWith (q := o.ordererEndpoints ≠ [])
      (.endpoints { addresses := o.ordererEndpoints }) (show "Endpoints" ≠ "MSP" by decide) hc
    refine .inr ⟨c, a, r, rfl, ha, hr, hanchors, hendpoints, ?_⟩
    have hiff : o.skipAsForeign = false ∧ o.anchorPeers ≠ [] ↔
        ¬ (o.skipAsForeign = true ∨ o.anchorPeers = []) := by simp
    by_cases hnone : o.skipAsForeign = true ∨ o.anchorPeers = []
    · have hsame : a = c := hanchors.same_iff.2 fun hadds => hiff.1 hadds hnone
      rw [if_pos hnone, hsame, Group.updateBetween_self]
    · have hadded := hanchors.added_iff.2 (hiff.2 hnone)
      rw [if_neg hnone, hadded, Group.updateBetween_setValue hanchors.lacks]
      have hversion := (isNew_consortiumGroup hc).here.version
      have hmodPolicy := (makes_of_consortiumGroup hc).modPolicy_eq
      cases c
      cases hversion
      cases hmodPolicy
      rfl

end Organization

end ChannelConfig
