import ChannelConfig.Proofs.NameMap
import ChannelConfig.Tree.Group

/-! Groups by their child groups: induction over a tree, and equality by look-up. -/

set_option autoImplicit false

namespace ChannelConfig

theorem SortedFrom.sizeOf_lt_of_find? {V : Type} [SizeOf V] {key : String} {v : V} :
    {lo : Option String} → {m : SortedFrom V lo} → m.find? key = some v → sizeOf v < sizeOf m
  | _, .nil, h => by cases h
  | _, .cons name _ w rest, h => by
    rw [SortedFrom.cons.sizeOf_spec]
    by_cases hk : name = key
    · subst hk
      rw [find?_cons_self] at h
      cases h
      omega
    · rw [find?_cons_of_ne hk] at h
      have := sizeOf_lt_of_find? h
      omega

/-- A tree is settled once its child groups are. -/
theorem Group.ind {motive : Group → Prop}
    (step : ∀ g, (∀ name child, g.groups.find? name = some child → motive child) → motive g)
    (g : Group) : motive g :=
  step g fun name child h =>
    have hlt : sizeOf child < sizeOf g := by
      have := SortedFrom.sizeOf_lt_of_find? h
      have hg : sizeOf g.groups < sizeOf g := by
        cases g
        simp
        omega
      omega
    ind step child
termination_by sizeOf g

namespace Group

theorem ext_of_find? {a b : Group} (hv : a.version = b.version) (hm : a.modPolicy = b.modPolicy)
    (hgs : ∀ name, a.groups.find? name = b.groups.find? name)
    (hvs : ∀ name, a.values.find? name = b.values.find? name)
    (hps : ∀ name, a.policies.find? name = b.policies.find? name) : a = b := by
  obtain ⟨v, gs, vs, ps, m⟩ := a
  obtain ⟨v', gs', vs', ps', m'⟩ := b
  have egs : gs = gs' := SortedFrom.ext hgs
  have evs : vs = vs' := SortedFrom.ext hvs
  have eps : ps = ps' := SortedFrom.ext hps
  have ev : v = v' := hv
  have em : m = m' := hm
  rw [egs, evs, eps, ev, em]

end Group

end ChannelConfig
