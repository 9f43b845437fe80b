import ChannelConfig.Proofs.Policy.Expression
import ChannelConfig.Proofs.Policy.Principal

/-! Building of rules. `build_expression`: the expression of a proper rule is built into that rule
with its leaves numbered from left to right, over the principals of its leaves. `built_of_build`:
whatever is built is proper, and its leaves are already numbered that way. -/

set_option autoImplicit false

namespace ChannelConfig

open Policy

namespace SignaturePolicy

/-- Gates are nested at most so deep, and every gate has rules and asks for at most one more than it
has; every leaf is one of so many identities. -/
inductive Proper (identities : Nat) : Nat → SignaturePolicy → Prop where
  | signedBy {depth : Nat} {i : Int32} (hpos : 0 ≤ i.toInt) (hlt : i.toInt < identities) :
      Proper identities depth (.signedBy i)
  | nOutOf {depth : Nat} {n : Int32} {rules : List SignaturePolicy} (hne : rules ≠ [])
      (hpos : 0 ≤ n.toInt) (hle : n.toInt ≤ rules.length + 1)
      (hrules : ∀ r ∈ rules, Proper identities depth r) :
      Proper identities (depth + 1) (.nOutOf n rules)

/-! ## Leaves -/

mutual
/-- The identities at the leaves, from left to right. -/
def leaves : SignaturePolicy → List Int32
  | .untyped => []
  | .signedBy i => [i]
  | .nOutOf _ rules => leavesAll rules

def leavesAll : List SignaturePolicy → List Int32
  | [] => []
  | rule :: rules => leaves rule ++ leavesAll rules
end

mutual
/-- The same gates over leaves that count up from `next`. -/
def renumber (next : Nat) : SignaturePolicy → SignaturePolicy
  | .untyped => .untyped
  | .signedBy _ => .signedBy (Int32.ofNat next)
  | .nOutOf n rules => .nOutOf n (renumberAll next rules)

def renumberAll (next : Nat) : List SignaturePolicy → List SignaturePolicy
  | [] => []
  | rule :: rules => renumber next rule :: renumberAll (next + (leaves rule).length) rules
end

/-! ## The expression of a rule -/

/-- The principal of an identity. -/
def principalAt (ps : List Principal) (i : Int32) : Principal := ps[i.toInt.toNat]!

mutual
/-- The expression that is shown for a rule. -/
def expression (ps : List Principal) : SignaturePolicy → Expression
  | .untyped => .gate 0 []
  | .signedBy i => .principal (principalAt ps i).text
  | .nOutOf n rules => .gate n.toInt.toNat (expressionAll ps rules)

def expressionAll (ps : List Principal) : List SignaturePolicy → List Expression
  | [] => []
  | rule :: rules => expression ps rule :: expressionAll ps rules
end

variable {ps : List Principal}

theorem expressionAll_eq (rules : List SignaturePolicy) :
    expressionAll ps rules = rules.map (expression ps) := by
  induction rules with
  | nil => rfl
  | cons rule rules ih => rw [expressionAll, ih, List.map_cons]

theorem Proper.nested {identities depth : Nat} {rule : SignaturePolicy}
    (h : rule.Proper identities depth) :
    (rule.expression ps).Nested (fun _ => True) depth := by
  induction h with
  | signedBy hpos hlt =>
    rw [expression]
    exact .principal trivial
  | nOutOf hne hpos hle hrules ih =>
    rw [expression, expressionAll_eq]
    refine .gate (fun hnil => hne (List.map_eq_nil_iff.1 hnil)) fun a ha => ?_
    obtain ⟨r, hr, rfl⟩ := List.mem_map.1 ha
    exact ih r hr

/-! ## Building the expression of a rule -/

theorem buildAll_expressionAll {rules : List SignaturePolicy}
    (h : ∀ r ∈ rules, ∀ next, next + r.leaves.length ≤ Expression.maxIdentities →
      Expression.build next (r.expression ps) =
        .ok (r.renumber next, r.leaves.map (principalAt ps)))
    {next : Nat} (hnext : next + (leavesAll rules).length ≤ Expression.maxIdentities) :
    Expression.buildAll next (expressionAll ps rules) =
      .ok (renumberAll next rules, (leavesAll rules).map (principalAt ps)) := by
  induction rules generalizing next with
  | nil => rfl
  | cons rule rules ih =>
    rw [leavesAll, List.length_append] at hnext
    have hrule := h rule (List.mem_cons_self ..) next (by omega)
    have hnext' : next + rule.leaves.length + (leavesAll rules).length ≤
        Expression.maxIdentities := by
      omega
    have hrules := ih (fun r hr => h r (List.mem_cons_of_mem rule hr)) hnext'
    rw [expressionAll, Expression.buildAll, hrule]
    simp only [List.length_map, hrules]
    rw [renumberAll, leavesAll, List.map_append]

theorem ofNat_eq {n : Int32} {k : Nat} (h : n.toInt = k) : Int32.ofNat k = n := by
  have hpos : 0 ≤ n := Int32.le_iff_toInt_le.2 (h ▸ Int.natCast_nonneg k)
  have hk : n.toInt.toNat = k := by omega
  exact hk ▸ Int32.ofNat_toNatClampNeg n hpos

theorem Proper.build_expression {depth : Nat} {rule : SignaturePolicy}
    (h : rule.Proper ps.length depth) (hps : ∀ p ∈ ps, p.Named) :
    ∀ next, next + rule.leaves.length ≤ Expression.maxIdentities →
      Expression.build next (rule.expression ps) =
        .ok (rule.renumber next, rule.leaves.map (principalAt ps)) := by
  induction h with
  | @signedBy depth i hpos hlt =>
    intro next hnext
    have hmem : principalAt ps i ∈ ps := by
      have hlt' : i.toInt.toNat < ps.length := by omega
      rw [principalAt, getElem!_pos ps _ hlt']
      exact List.getElem_mem hlt'
    rw [leaves, List.length_singleton] at hnext
    rw [expression, Expression.build, Expression.parsePrincipal_text (hps _ hmem)]
    simp only
    rw [if_pos (by omega), renumber, leaves]
    rfl
  | @nOutOf depth n rules hne hpos hle hrules ih =>
    intro next hnext
    rw [leaves] at hnext
    have hlength : (expressionAll ps rules).length = rules.length := by
      rw [expressionAll_eq, List.length_map]
    have hn : Int32.ofNat n.toInt.toNat = n := ofNat_eq (by omega)
    rw [expression, Expression.build, hlength, if_neg (by omega), buildAll_expressionAll ih hnext,
      hn, renumber, leaves]

/-! ## What is built -/

/-- A rule built from expressions of at most `size` characters, with its leaves counting up from
`next`, and the principals at them. -/
structure Built (size identities depth next : Nat) (rule : SignaturePolicy) (ps : List Principal) :
    Prop where
  proper : rule.Proper identities depth
  numbered : rule.renumber next = rule
  leaves_eq : rule.leaves = (List.range' next ps.length).map Int32.ofNat
  ne_nil : ps ≠ []
  named : ∀ p ∈ ps, p.Named ∧ p.mspId.length ≤ size

/-- The same of rules side by side. Every one of them has a leaf, so there are no more than
principals. -/
structure BuiltAll (size identities depth next : Nat) (rules : List SignaturePolicy)
    (ps : List Principal) : Prop where
  proper : ∀ r ∈ rules, r.Proper identities depth
  numbered : renumberAll next rules = rules
  leaves_eq : leavesAll rules = (List.range' next ps.length).map Int32.ofNat
  length_le : rules.length ≤ ps.length
  named : ∀ p ∈ ps, p.Named ∧ p.mspId.length ≤ size

variable {size identities depth next : Nat}

theorem BuiltAll.nil : BuiltAll size identities depth next [] [] :=
  ⟨nofun, rfl, rfl, Nat.le_refl 0, nofun⟩

theorem BuiltAll.cons {rule : SignaturePolicy} {rules : List SignaturePolicy}
    {qs : List Principal} (h : Built size identities depth next rule ps)
    (hs : BuiltAll size identities depth (next + ps.length) rules qs) :
    BuiltAll size identities depth next (rule :: rules) (ps ++ qs) where
  proper := List.forall_mem_cons.2 ⟨h.proper, hs.proper⟩
  numbered := by
    rw [renumberAll, h.numbered, h.leaves_eq, List.length_map, List.length_range', hs.numbered]
  leaves_eq := by
    rw [leavesAll, h.leaves_eq, hs.leaves_eq, List.length_append, ← List.map_append,
      List.range'_append_1]
  length_le := by
    have := List.length_pos_iff.2 h.ne_nil
    have := hs.length_le
    rw [List.length_cons, List.length_append]
    omega
  named := by
    intro p hp
    exact (List.mem_append.1 hp).elim (h.named p) (hs.named p)

theorem exists_of_build_principal {text : String} {rule : SignaturePolicy}
    (h : Expression.build next (.principal text) = .ok (rule, ps)) :
    ∃ p, Expression.parsePrincipal text = .ok p ∧ next < Expression.maxIdentities ∧
      rule = .signedBy (Int32.ofNat next) ∧ ps = [p] := by
  rw [Expression.build] at h
  split at h
  · cases h
  · next p hp =>
    split at h
    · next hlt =>
      cases h
      exact ⟨p, hp, hlt, rfl, rfl⟩
    · cases h

theorem exists_of_build_gate {k : Nat} {args : List Expression} {rule : SignaturePolicy}
    (h : Expression.build next (.gate k args) = .ok (rule, ps)) :
    ∃ rules, rule = .nOutOf (Int32.ofNat k) rules ∧ k ≤ args.length + 1 ∧
      Expression.buildAll next args = .ok (rules, ps) := by
  rw [Expression.build] at h
  split at h
  · cases h
  · next hk =>
    split at h
    · cases h
    · next rules qs hrules =>
      cases h
      exact ⟨rules, rfl, by omega, hrules⟩

theorem exists_of_buildAll_cons {arg : Expression} {args : List Expression}
    {rules : List SignaturePolicy} (h : Expression.buildAll next (arg :: args) = .ok (rules, ps)) :
    ∃ rule rules' qs rs, rules = rule :: rules' ∧ ps = qs ++ rs ∧
      Expression.build next arg = .ok (rule, qs) ∧
      Expression.buildAll (next + qs.length) args = .ok (rules', rs) := by
  rw [Expression.buildAll] at h
  split at h
  · cases h
  · next rule qs hrule =>
    split at h
    · cases h
    · next rules' rs hrules =>
      cases h
      exact ⟨rule, rules', qs, rs, rfl, rfl, hrule, hrules⟩

theorem built_of_buildAll {args : List Expression}
    (h : ∀ a ∈ args, ∀ {next rule ps}, Expression.build next a = .ok (rule, ps) →
      next + ps.length ≤ identities → Built size identities depth next rule ps)
    {rules : List SignaturePolicy} (hbuild : Expression.buildAll next args = .ok (rules, ps))
    (hnext : next + ps.length ≤ identities) :
    rules.length = args.length ∧ BuiltAll size identities depth next rules ps := by
  induction args generalizing next rules ps with
  | nil =>
    cases hbuild
    exact ⟨rfl, .nil⟩
  | cons arg args ih =>
    obtain ⟨rule, rules, qs, rs, rfl, rfl, hrule, hrules⟩ := exists_of_buildAll_cons hbuild
    rw [List.length_append] at hnext
    have hbuilt := h arg (List.mem_cons_self ..) hrule (by omega)
    obtain ⟨hlength, hall⟩ :=
      ih (fun a ha => h a (List.mem_cons_of_mem arg ha)) hrules (by omega)
    exact ⟨congrArg (· + 1) hlength, .cons hbuilt hall⟩

theorem toInt_ofNat {n : Nat} (h : n < 2147483648) : (Int32.ofNat n).toInt = n :=
  Int32.toInt_ofNat_of_lt h

theorem built_of_build (hidentities : identities < 2147483647) {e : Expression}
    (h : e.Nested (fun text => text.length ≤ size) depth) :
    ∀ {next rule ps}, Expression.build next e = .ok (rule, ps) →
      next + ps.length ≤ identities → Built size identities depth next rule ps := by
  induction h with
  | principal hsize =>
    intro next rule ps hbuild hnext
    obtain ⟨p, hp, -, rfl, rfl⟩ := exists_of_build_principal hbuild
    obtain ⟨hnamed, hlength⟩ := Expression.named_of_parsePrincipal hp
    rw [List.length_singleton] at hnext
    have hint := toInt_ofNat (n := next) (by omega)
    exact ⟨.signedBy (by omega) (by omega), by rw [renumber], by rw [leaves]; rfl,
      List.cons_ne_nil _ _, List.forall_mem_singleton.2 ⟨hnamed, Nat.le_trans hlength hsize⟩⟩
  | @gate depth k args hne hargs ih =>
    intro next rule ps hbuild hnext
    obtain ⟨rules, rfl, hk, hrules⟩ := exists_of_build_gate hbuild
    obtain ⟨hlength, hall⟩ := built_of_buildAll (fun a ha => ih a ha) hrules hnext
    have hle := hall.length_le
    have hpos : 0 < args.length := List.length_pos_iff.2 hne
    -- a gate has no more arguments than principals, so its number fits 31 bits
    have hint := toInt_ofNat (n := k) (by omega)
    refine ⟨.nOutOf ?_ (by omega) (by omega) hall.proper, ?_, ?_, ?_, hall.named⟩
    · exact List.length_pos_iff.1 (by omega)
    · rw [renumber, hall.numbered]
    · rw [leaves, hall.leaves_eq]
    · exact List.length_pos_iff.1 (by omega)

end SignaturePolicy

end ChannelConfig
