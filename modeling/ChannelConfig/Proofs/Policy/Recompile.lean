import ChannelConfig.Proofs.Policy.Render
import ChannelConfig.Proofs.Policy.Spelling
import ChannelConfig.Proofs.Result

/-! Showing and recompiling. An envelope that expressions can say comes back with its leaves
numbered from left to right, each with an identity of its own, and otherwise as it was; what
`compile` gives is of that form already, so that it comes back unchanged. -/

set_option autoImplicit false

namespace ChannelConfig.Policy

open Wire

/-- The envelope's rule is a proper gate over role principals that expressions may name. -/
structure Expressible (env : SignaturePolicyEnvelope) (rule : SignaturePolicy)
    (ps : List Principal) : Prop where
  rule_eq : env.rule = some rule
  isGate : ∃ n rules, rule = .nOutOf n rules
  proper : rule.Proper env.identities.length 64
  leaves_lt : rule.leaves.length < 2147483647
  identities_eq : env.identities.map Principal.ofMessage = ps.map .ok
  named : ∀ p ∈ ps, p.Named

/-- The same gates over leaves that are numbered from left to right, each with the principal that it
stands for. -/
def normal (rule : SignaturePolicy) (ps : List Principal) : SignaturePolicyEnvelope where
  version := 0
  rule := some (rule.renumber 0)
  identities := (rule.leaves.map (SignaturePolicy.principalAt ps)).map Principal.toMessage

variable {env : SignaturePolicyEnvelope} {rule : SignaturePolicy} {ps : List Principal}

theorem Expressible.compile_render (h : Expressible env rule ps) :
    ∃ text, render env = .ok text ∧ compile text = .ok (normal rule ps) := by
  have hlength : env.identities.length = ps.length := by
    simpa using congrArg List.length h.identities_eq
  have hproper : rule.Proper ps.length maxGateDepth := hlength ▸ h.proper
  obtain ⟨text, htext, hscans⟩ := hproper.scans h.named
  have hparse : Expression.parse (rule.expression ps).tokens = .ok (rule.expression ps) := by
    have hnested : (rule.expression ps).Nested (fun _ => True) maxGateDepth := hproper.nested
    obtain ⟨n, rules, rfl⟩ := h.isGate
    rw [SignaturePolicy.expression] at hnested ⊢
    exact Expression.parse_tokens hnested
  have hbuild := hproper.build_expression h.named 0 (by
    have := h.leaves_lt
    simp only [Expression.maxIdentities]
    omega)
  refine ⟨text, ?_, ?_⟩
  · rw [render, mapM_eq_ok h.identities_eq, h.rule_eq]
    exact htext
  · rw [compile, hscans.scan]
    show (Expression.parse _ >>= _) = _
    rw [hparse]
    show (Expression.build 0 _ >>= _) = _
    rw [hbuild]
    rfl

/-! ## What is compiled -/

theorem exists_of_compile {text : String} (h : compile text = .ok env) :
    ∃ tokens e rule ps, Token.scan 0 text.toList = .ok tokens ∧ Expression.parse tokens = .ok e ∧
      Expression.build 0 e = .ok (rule, ps) ∧
      env = { version := 0, rule := some rule, identities := ps.map Principal.toMessage } := by
  rw [compile] at h
  obtain ⟨tokens, hscan, h⟩ := exists_of_bind_eq_ok h
  obtain ⟨e, hparse, h⟩ := exists_of_bind_eq_ok h
  obtain ⟨⟨rule, ps⟩, hbuild, h⟩ := exists_of_bind_eq_ok h
  cases h
  exact ⟨tokens, e, rule, ps, hscan, hparse, hbuild, rfl⟩

theorem map_principalAt (h : ps.length < 2147483648) :
    ((List.range' 0 ps.length).map Int32.ofNat).map (SignaturePolicy.principalAt ps) = ps := by
  refine List.ext_getElem (by simp) fun i hi hi' => ?_
  have hint := SignaturePolicy.toInt_ofNat (n := i) (by omega)
  simp only [List.getElem_map, List.getElem_range', SignaturePolicy.principalAt, Nat.zero_add,
    Nat.one_mul, hint, Int.toNat_natCast]
  exact getElem!_pos ps i hi'

/-- What is compiled is a gate over leaves that count up from 0, one for each identity. -/
theorem built_of_compile {text : String} (h : compile text = .ok env)
    (hcount : env.identities.length < 2147483647) :
    ∃ rule ps, env = { version := 0, rule := some rule, identities := ps.map Principal.toMessage } ∧
      (∃ n rules, rule = .nOutOf n rules) ∧
      SignaturePolicy.Built text.length ps.length maxGateDepth 0 rule ps := by
  obtain ⟨tokens, e, rule, ps, hscan, hparse, hbuild, rfl⟩ := exists_of_compile h
  have hps : ps.length < 2147483647 := by simpa using hcount
  have hliterals : Expression.Literals (fun literal => literal.length ≤ text.length) tokens :=
    fun literal hmem => String.length_toList (s := text) ▸
      length_le_of_literal_mem_scan hscan hmem
  obtain ⟨⟨k, args, rfl⟩, hnested⟩ := Expression.nested_of_parse hliterals hparse
  have hbuilt := SignaturePolicy.built_of_build hps hnested hbuild (Nat.le_of_eq (Nat.zero_add _))
  obtain ⟨rules, hrule, -⟩ := SignaturePolicy.exists_of_build_gate hbuild
  exact ⟨rule, ps, rfl, ⟨_, rules, hrule⟩, hbuilt⟩

/-- What is compiled is in normal form. -/
theorem expressible_of_compile {text : String} (htext : text.length < 9223372036854775808)
    (h : compile text = .ok env) (hcount : env.identities.length < 2147483647) :
    ∃ rule ps, Expressible env rule ps ∧ normal rule ps = env := by
  obtain ⟨rule, ps, rfl, hgate, hbuilt⟩ := built_of_compile h hcount
  have hps : ps.length < 2147483647 := by simpa using hcount
  refine ⟨rule, ps, ⟨rfl, hgate, ?_, ?_, ?_, fun p hp => (hbuilt.named p hp).1⟩, ?_⟩
  · rw [List.length_map]
    exact hbuilt.proper
  · rw [hbuilt.leaves_eq, List.length_map, List.length_range']
    exact hps
  · rw [List.map_map]
    refine List.map_congr_left fun p hp => ?_
    obtain ⟨hnamed, hlength⟩ := hbuilt.named p hp
    exact Principal.ofMessage_toMessage hnamed (by omega)
  · have hleaves : rule.leaves.map (SignaturePolicy.principalAt ps) = ps := by
      rw [hbuilt.leaves_eq]
      exact map_principalAt (by omega)
    rw [normal, hbuilt.numbered, hleaves]

/-- Every envelope that expressions can say is shown as a text that compiles to its normal form;
and what any text compiles to is shown as one that compiles to the same. Texts in memory are shorter
than 2^63 bytes, so than as many characters. -/
theorem compile_render_normalizes :
    (∀ env rule ps, Expressible env rule ps →
      ∃ text, render env = .ok text ∧ compile text = .ok (normal rule ps)) ∧
    ∀ (text : String) env, text.length < 9223372036854775808 → compile text = .ok env →
      env.identities.length < 2147483647 →
      ∃ shown, render env = .ok shown ∧ compile shown = .ok env := by
  refine ⟨fun env rule ps h => h.compile_render, fun text env htext h hcount => ?_⟩
  obtain ⟨rule, ps, hexpressible, hnormal⟩ := expressible_of_compile htext h hcount
  exact hnormal ▸ hexpressible.compile_render

/-- Two principals, one with points in its MSP id. -/
def twoPrincipals : List Principal := [⟨"Org1.example", .peer⟩, ⟨"B-2", .admin⟩]

/-- A gate that can never be satisfied inside one that asks for all, over leaves out of order. -/
def nestedGates : SignaturePolicy := .nOutOf 2 [.signedBy 1, .nOutOf 3 [.signedBy 0, .signedBy 1]]

/-- The same principal twice, under a gate that asks for none. -/
def repeatedPeer : SignaturePolicyEnvelope where
  rule := some (.nOutOf 1 [.signedBy 0, .nOutOf 0 [.signedBy 1]])
  identities := [⟨"A", .peer⟩, ⟨"A", .peer⟩].map Principal.toMessage

/-- The nested gates by way of a text, and a text with blanks and both kinds of quotes by way of
its envelope. -/
theorem compile_render_normalizes_nested_gates :
    (∃ text, render ⟨7, some nestedGates, twoPrincipals.map Principal.toMessage⟩ = .ok text ∧
      compile text = .ok (normal nestedGates twoPrincipals)) ∧
    compile "or('A.peer', outof( 0 ,\"A.Peer\"))" = .ok repeatedPeer ∧
    ∃ shown, render repeatedPeer = .ok shown ∧ compile shown = .ok repeatedPeer := by
  have hnamed : ∀ p ∈ twoPrincipals, p.Named := by decide +kernel
  have hcompile : compile "or('A.peer', outof( 0 ,\"A.Peer\"))" = .ok repeatedPeer := by
    have h : (compile "or('A.peer', outof( 0 ,\"A.Peer\"))").toOption = some repeatedPeer := by
      decide +kernel
    cases hc : compile "or('A.peer', outof( 0 ,\"A.Peer\"))" with
    | error fault =>
      rw [hc] at h
      cases h
    | ok env =>
      rw [hc] at h
      exact congrArg _ (Option.some.inj h)
  refine ⟨?_, hcompile, ?_⟩
  · refine compile_render_normalizes.1 _ _ _ ⟨rfl, ⟨_, _, rfl⟩, ?_, by decide, ?_, hnamed⟩
    · refine .nOutOf (by decide) (by decide) (by decide) (List.forall_mem_cons.2
        ⟨.signedBy (by decide) (by decide), List.forall_mem_singleton.2 ?_⟩)
      exact .nOutOf (by decide) (by decide) (by decide) (List.forall_mem_cons.2
        ⟨.signedBy (by decide) (by decide), List.forall_mem_singleton.2
          (.signedBy (by decide) (by decide))⟩)
    · rw [List.map_map]
      refine List.map_congr_left fun p hp => ?_
      refine Principal.ofMessage_toMessage (hnamed p hp) ?_
      have hshort : ∀ p ∈ twoPrincipals, p.mspId.length < 9223372036854775808 := by decide
      exact hshort p hp
  · exact compile_render_normalizes.2 _ _ (by decide) hcompile (by decide)

end ChannelConfig.Policy
