import ChannelConfig.Policy.Access
import ChannelConfig.Proofs.Policy.Acceptance

/-! Compiled policies on the wire. A gate takes two levels of nesting, itself and the rules in it, so
that of the 64 levels of gates that expressions may have only 49 can be read back from the 100 levels
of a message. -/

set_option autoImplicit false

namespace ChannelConfig

namespace SignaturePolicy

mutual
/-- How deep gates are nested. -/
def gateDepth : SignaturePolicy → Nat
  | .untyped | .signedBy _ => 0
  | .nOutOf _ rules => gateDepthAll rules + 1

def gateDepthAll : List SignaturePolicy → Nat
  | [] => 0
  | rule :: rules => max (gateDepth rule) (gateDepthAll rules)
end

end SignaturePolicy

namespace Policy

open Wire

/-! ## Rules of clauses -/

mutual
theorem Denotes.nesting_rule {depth : Nat} {cs : List Char} {clause : Clause} :
    Denotes depth cs clause → ∀ next,
      (clause.rule next).nesting = 2 * (clause.rule next).gateDepth
  | .principal _, next => by
    rw [Clause.rule, SignaturePolicy.nesting, SignaturePolicy.gateDepth]
  | .gate _ hargs _ _, next => by
    rw [Clause.rule, SignaturePolicy.nesting, SignaturePolicy.gateDepth, hargs.nesting_rules]
    omega

theorem DenotesAll.nesting_rules {depth : Nat} {cs : List Char} {args : List Clause} :
    DenotesAll depth cs args → ∀ next, SignaturePolicy.nestingAll (Clause.ruleAll next args) =
      2 * SignaturePolicy.gateDepthAll (Clause.ruleAll next args) + 1
  | .single h, next => by
    rw [Clause.ruleAll, Clause.ruleAll, SignaturePolicy.nestingAll, SignaturePolicy.nestingAll,
      SignaturePolicy.gateDepthAll, SignaturePolicy.gateDepthAll, h.nesting_rule]
    omega
  | .cons h _ hs, next => by
    rw [Clause.ruleAll, SignaturePolicy.nestingAll, SignaturePolicy.gateDepthAll, h.nesting_rule,
      hs.nesting_rules]
    omega
end

theorem Clause.length_ruleAll (next : Nat) (args : List Clause) :
    (Clause.ruleAll next args).length = args.length := by
  induction args generalizing next with
  | nil =>
    rw [Clause.ruleAll]
    rfl
  | cons arg args ih => rw [Clause.ruleAll, List.length_cons, List.length_cons, ih]

mutual
/-- Rules with so many gates around each leaf take few bytes for each of their leaves. -/
theorem Denotes.length_encode_rule {depth : Nat} {cs : List Char} {clause : Clause} :
    Denotes depth cs clause → 33 * (depth + 1) * clause.principals.length < UInt64.size →
      ∀ next, (clause.rule next).encode.length ≤ 33 * (depth + 1) * clause.principals.length
  | .principal _, _, next => by
    have := SignaturePolicy.length_encode_signedBy_le (Int32.ofNat next)
    rw [Clause.rule, Clause.principals, List.length_singleton]
    omega
  | @Denotes.gate depth quorum _ _ _ args _ hargs _ _, hshort, next => by
    rw [Clause.principals] at hshort ⊢
    -- one more level of gates takes 33 bytes more for each leaf
    have hlevel : 33 * (depth + 1 + 1) * (Clause.principalsAll args).length =
        33 * (depth + 1) * (Clause.principalsAll args).length +
          33 * (Clause.principalsAll args).length := by
      rw [Nat.mul_succ, Nat.add_mul]
    rw [hlevel] at hshort ⊢
    have hcount := hargs.length_le_principals
    have hlength := Clause.length_ruleAll next args
    have hrules := hargs.length_encode_rules (by omega) next
    have hgate := @SignaturePolicy.length_encode_nOutOf_le
      (Int32.ofNat (quorum.number args.length)) (Clause.ruleAll next args) (by omega)
    rw [Clause.rule]
    omega

theorem DenotesAll.length_encode_rules {depth : Nat} {cs : List Char} {args : List Clause} :
    DenotesAll depth cs args → 33 * (depth + 1) * (Clause.principalsAll args).length < UInt64.size →
      ∀ next, ((Clause.ruleAll next args).flatMap SignaturePolicy.encode).length ≤
        33 * (depth + 1) * (Clause.principalsAll args).length
  | .single h, hshort, next => by
    rw [Clause.principalsAll, Clause.principalsAll, List.append_nil] at hshort ⊢
    rw [Clause.ruleAll, Clause.ruleAll, List.flatMap_singleton]
    exact h.length_encode_rule hshort next
  | @DenotesAll.cons _ _ _ _ arg args h _ hs, hshort, next => by
    rw [Clause.principalsAll, List.length_append, Nat.mul_add] at hshort ⊢
    have hrule := h.length_encode_rule (by omega) next
    have hrules := hs.length_encode_rules (by omega) (next + arg.principals.length)
    rw [Clause.ruleAll, List.flatMap_cons, List.length_append]
    omega
end

mutual
/-- Rules over principals that are all there can be shown. -/
theorem Denotes.exists_shown {depth : Nat} {cs : List Char} {clause : Clause} {ps : List Principal}
    (hps : ps.length ≤ 2147483648) :
    Denotes depth cs clause → ∀ next, next + clause.principals.length ≤ ps.length →
      ∃ text, renderRule ps depth (clause.rule next) = .ok text
  | .principal _, next, hnext => by
    rw [Clause.principals, List.length_singleton] at hnext
    have hint := SignaturePolicy.toInt_ofNat (n := next) (by omega)
    have hat : ps[(Int32.ofNat next).toInt.toNat]? = some ps[next] := by
      rw [hint, Int.toNat_natCast]
      exact List.getElem?_eq_getElem hnext
    rw [Clause.rule]
    exact ⟨_, SignaturePolicy.renderRule_signedBy (by omega) hat⟩
  | .gate _ hargs _ _, next, hnext => by
    rw [Clause.principals] at hnext
    obtain ⟨texts, htexts⟩ := hargs.exists_shown hps next hnext
    rw [Clause.rule]
    exact ⟨_, SignaturePolicy.renderRule_nOutOf htexts⟩

theorem DenotesAll.exists_shown {depth : Nat} {cs : List Char} {args : List Clause}
    {ps : List Principal} (hps : ps.length ≤ 2147483648) :
    DenotesAll depth cs args → ∀ next,
      next + (Clause.principalsAll args).length ≤ ps.length →
      ∃ texts, renderRules ps depth (Clause.ruleAll next args) = .ok texts
  | .single h, next, hnext => by
    rw [Clause.principalsAll, Clause.principalsAll, List.append_nil] at hnext
    obtain ⟨text, htext⟩ := h.exists_shown hps next hnext
    rw [Clause.ruleAll, Clause.ruleAll]
    exact ⟨[text], SignaturePolicy.renderRules_cons htext (by rw [renderRules])⟩
  | @DenotesAll.cons _ _ _ _ arg args h _ hs, next, hnext => by
    rw [Clause.principalsAll, List.length_append] at hnext
    obtain ⟨text, htext⟩ := h.exists_shown hps next (by omega)
    obtain ⟨texts, htexts⟩ := hs.exists_shown hps (next + arg.principals.length) (by omega)
    rw [Clause.ruleAll]
    exact ⟨text :: texts, SignaturePolicy.renderRules_cons htext htexts⟩
end

/-! ## Envelopes of clauses -/

mutual
/-- MSP ids stand in the text, each in a place of its own. -/
theorem Denotes.named {depth : Nat} {cs : List Char} {clause : Clause} :
    Denotes depth cs clause → (∀ p ∈ clause.principals, p.Named) ∧
      (clause.principals.flatMap (·.mspId.toList)).length ≤ cs.length
  | .principal h => by
    rw [Clause.principals]
    cases h with
    | intro hblanks h =>
      cases h with
      | intro hquote hid hrole =>
        refine ⟨List.forall_mem_singleton.2 hid, ?_⟩
        simp only [List.flatMap_singleton, List.length_append, List.length_cons]
        omega
  | .gate _ hargs _ _ => by
    obtain ⟨hnamed, hlength⟩ := hargs.named
    rw [Clause.principals, List.length_append, List.length_append]
    exact ⟨hnamed, by omega⟩

theorem DenotesAll.named {depth : Nat} {cs : List Char} {args : List Clause} :
    DenotesAll depth cs args → (∀ p ∈ Clause.principalsAll args, p.Named) ∧
      ((Clause.principalsAll args).flatMap (·.mspId.toList)).length ≤ cs.length
  | .single h => by
    rw [Clause.principalsAll, Clause.principalsAll, List.append_nil]
    exact h.named
  | .cons h _ hs => by
    obtain ⟨hnamed, hlength⟩ := h.named
    obtain ⟨hnameds, hlengths⟩ := hs.named
    rw [Clause.principalsAll, List.flatMap_append, List.length_append, List.length_append,
      List.length_append]
    refine ⟨fun p hp => ?_, by omega⟩
    exact (List.mem_append.1 hp).elim (hnamed p) (hnameds p)
end

theorem length_encode_toMessage_le {p : Principal} (h : p.Named)
    (hlength : p.mspId.length + 22 < UInt64.size) :
    (encode p.toMessage).length ≤ p.mspId.length + 44 := by
  have hrole := p.length_encode_le h (by omega)
  have hclass := @Field.length_int32_le 1 (by decide) p.toMessage.classification
  have hbytes : (Field.bytes.encodeAt 2 p.toMessage.principal).length ≤
      p.toMessage.principal.length + 11 :=
    @Field.length_single_le _ .bytes 2 (by decide) _ (Nat.lt_of_le_of_lt hrole hlength)
  have hencode : encode p.toMessage = Field.int32.encodeAt 1 p.toMessage.classification ++
      (Field.bytes.encodeAt 2 p.toMessage.principal ++ []) := by
    show (Fields.cons 1 .int32 <| .cons 2 .bytes .nil).encode
      (p.toMessage.classification, p.toMessage.principal, ()) = _
    rw [Fields.encode_cons, Fields.encode_cons, Fields.encode_nil]
  have hprincipal : p.toMessage.principal.length ≤ p.mspId.length + 22 := hrole
  rw [hencode, List.append_nil, List.length_append]
  omega

theorem length_flatMap_toMessage_le {ps : List Principal} (h : ∀ p ∈ ps, p.Named)
    (hlength : (ps.flatMap (·.mspId.toList)).length + 22 < UInt64.size) :
    ((ps.map Principal.toMessage).flatMap encode).length ≤
      (ps.flatMap (·.mspId.toList)).length + 44 * ps.length := by
  induction ps with
  | nil => exact Nat.le_refl 0
  | cons p ps ih =>
    rw [List.flatMap_cons, List.length_append, String.length_toList] at hlength
    have hp := length_encode_toMessage_le (h p (List.mem_cons_self ..)) (by omega)
    have hps := ih (fun q hq => h q (List.mem_cons_of_mem p hq)) (by omega)
    simp only [List.map_cons, List.flatMap_cons, List.length_append, List.length_cons,
      String.length_toList]
    omega

/-- The envelope of a text in memory fits any buffer. -/
theorem Says.length_encode_envelope {text : List Char} {clause : Clause} (h : Says text clause)
    (htext : text.length < 9223372036854775808)
    (hcount : clause.principals.length ≤ 2147483648) :
    (encode clause.envelope).length < UInt64.size := by
  obtain ⟨-, gate, blanks, rfl, hdenotes, -⟩ := h
  obtain ⟨hnamed, hlength⟩ := hdenotes.named
  rw [List.length_append] at htext
  have hsize : UInt64.size = 18446744073709551616 := rfl
  have hrule := hdenotes.length_encode_rule (by omega) 0
  have hids := length_flatMap_toMessage_le hnamed (by omega)
  have hversion := @Field.length_int32_le 1 (by decide) 0
  have hoptional : ((Field.optional (message SignaturePolicy)).encodeAt 2
      (some (clause.rule 0))).length ≤ (clause.rule 0).encode.length + 11 :=
    Field.length_some_le (by decide) (Nat.lt_of_le_of_lt hrule (by omega))
  have hrepeated : ((Field.repeated (message MspPrincipal)).encodeAt 3
      (clause.principals.map Principal.toMessage)).length ≤
        ((clause.principals.map Principal.toMessage).flatMap encode).length +
          11 * (clause.principals.map Principal.toMessage).length :=
    Field.length_repeated_le (by decide) (Nat.lt_of_le_of_lt hids (by omega))
  rw [List.length_map] at hrepeated
  have hencode : encode clause.envelope = Field.int32.encodeAt 1 0 ++
      ((Field.optional (message SignaturePolicy)).encodeAt 2 (some (clause.rule 0)) ++
        ((Field.repeated (message MspPrincipal)).encodeAt 3
          (clause.principals.map Principal.toMessage) ++ [])) := by
    show (Fields.cons 1 .int32 <| .cons 2 (.optional (message SignaturePolicy)) <|
      .cons 3 (.repeated (message MspPrincipal)) .nil).encode
      (0, some (clause.rule 0), clause.principals.map Principal.toMessage, ()) = _
    rw [Fields.encode_cons, Fields.encode_cons, Fields.encode_cons, Fields.encode_nil]
  rw [hencode, List.append_nil, List.length_append, List.length_append]
  omega

theorem nesting_identities_le (ms : List MspPrincipal) :
    (Field.repeated (message MspPrincipal)).nesting ms ≤ 1 := by
  have hone : ∀ m, (message MspPrincipal).nesting m = 1 := by
    intro m
    show max 0 (max (if Content.bytes.toBytes m.principal = [] then 0 else 0) 0) + 1 = 1
    split <;> rfl
  induction ms with
  | nil => exact Nat.zero_le 1
  | cons m ms ih =>
    show max ((message MspPrincipal).nesting m)
      ((Field.repeated (message MspPrincipal)).nesting ms) ≤ 1
    rw [hone]
    omega

/-- Gates take two levels each, and the rule of the envelope one more. -/
theorem Says.nesting_envelope {text : List Char} {clause : Clause} (h : Says text clause) :
    nesting clause.envelope = 2 * (clause.rule 0).gateDepth + 1 := by
  obtain ⟨-, gate, blanks, rfl, hdenotes, -⟩ := h
  have hrule := hdenotes.nesting_rule 0
  have hids := nesting_identities_le (clause.principals.map Principal.toMessage)
  have hnesting : nesting clause.envelope =
      max 0 (max ((clause.rule 0).nesting + 1)
        (max ((Field.repeated (message MspPrincipal)).nesting
          (clause.principals.map Principal.toMessage)) 0)) := rfl
  omega

/-! ## Reading back -/

/-- A short envelope is read back if its rule leaves enough levels. -/
theorem ofMessage_signature {env : SignaturePolicyEnvelope}
    (h : (encode env).length < UInt64.size) :
    AccessPolicy.ofMessage (AccessPolicy.signature env).toMessage =
      if nesting env ≤ maxLevels then .ok (.signature env) else .error (.decode .tooDeep) := by
  have htype : (AccessPolicy.signature env).toMessage.type = AccessPolicy.signatureType := rfl
  have hmeta : AccessPolicy.signatureType ≠ AccessPolicy.implicitMetaType := by decide
  rw [AccessPolicy.ofMessage, htype, if_neg hmeta, if_pos rfl]
  show (Result.ofDecode (decode (encode env))).map AccessPolicy.signature = _
  rw [decode_encode_eq h]
  split <;> rfl

theorem Says.named {text : List Char} {clause : Clause} (h : Says text clause) :
    ∀ p ∈ clause.principals, p.Named ∧ p.mspId.length ≤ text.length := by
  obtain ⟨-, gate, blanks, rfl, hdenotes, -⟩ := h
  obtain ⟨hnamed, hlength⟩ := hdenotes.named
  intro p hp
  obtain ⟨before, after, hps⟩ := List.append_of_mem hp
  rw [hps, List.flatMap_append, List.flatMap_cons, List.length_append, List.length_append,
    String.length_toList] at hlength
  rw [List.length_append]
  exact ⟨hnamed p hp, by omega⟩

theorem Says.render_envelope {text : List Char} {clause : Clause} (h : Says text clause)
    (htext : text.length < 9223372036854775808)
    (hcount : clause.principals.length ≤ 2147483648) :
    ∃ shown, render clause.envelope = .ok shown := by
  have hids : (clause.principals.map Principal.toMessage).map Principal.ofMessage =
      clause.principals.map .ok := by
    rw [List.map_map]
    refine List.map_congr_left fun p hp => ?_
    obtain ⟨hnamed, hlength⟩ := h.named p hp
    exact Principal.ofMessage_toMessage hnamed (by omega)
  obtain ⟨-, gate, blanks, -, hdenotes, -⟩ := h
  obtain ⟨shown, hshown⟩ := hdenotes.exists_shown hcount 0 (by omega)
  refine ⟨shown, ?_⟩
  rw [render]
  show (List.mapM Principal.ofMessage (clause.principals.map Principal.toMessage) >>= _) = _
  rw [mapM_eq_ok hids]
  exact hshown

/-- Of the levels of a message one goes to the rule and two go to each gate. -/
theorem Says.ofMessage_envelope {text : List Char} {clause : Clause} (h : Says text clause)
    (htext : text.length < 9223372036854775808)
    (hcount : clause.principals.length ≤ 2147483648) :
    AccessPolicy.ofMessage (AccessPolicy.signature clause.envelope).toMessage =
      if (clause.rule 0).gateDepth ≤ 49 then .ok (.signature clause.envelope)
      else .error (.decode .tooDeep) := by
  have hlevels :
      2 * (clause.rule 0).gateDepth + 1 ≤ maxLevels ↔ (clause.rule 0).gateDepth ≤ 49 := by
    simp only [maxLevels]
    omega
  rw [ofMessage_signature (h.length_encode_envelope htext hcount), h.nesting_envelope]
  simp only [hlevels]

/-- Compiled policies are shown, and those with gates nested at most 49 deep are read back from the
wire and shown alike; those with deeper gates cannot be read back. -/
theorem compile_reads_back {text : String} {env : SignaturePolicyEnvelope}
    (htext : text.length < 9223372036854775808) (h : compile text = .ok env) :
    ∃ rule shown, env.rule = some rule ∧ render env = .ok shown ∧
      (rule.gateDepth ≤ 49 →
        AccessPolicy.ofMessage (AccessPolicy.signature env).toMessage = .ok (.signature env) ∧
        AccessPolicy.renderMessage (AccessPolicy.signature env).toMessage = .ok shown) ∧
      (49 < rule.gateDepth →
        AccessPolicy.ofMessage (AccessPolicy.signature env).toMessage = .error (.decode .tooDeep) ∧
        AccessPolicy.renderMessage (AccessPolicy.signature env).toMessage =
          .error (.decode .tooDeep)) := by
  obtain ⟨clause, hsaid, rfl⟩ := says_of_compile h
  have hcount : clause.principals.length ≤ 2147483648 := by
    rw [hsaid.compile_eq] at h
    split at h
    · next hfits => exact hfits
    · cases h
  rw [← String.length_toList] at htext
  obtain ⟨shown, hshown⟩ := hsaid.render_envelope htext hcount
  have hread := hsaid.ofMessage_envelope htext hcount
  refine ⟨clause.rule 0, shown, rfl, hshown, fun hdepth => ?_, fun hdepth => ?_⟩
  · rw [if_pos hdepth] at hread
    refine ⟨hread, ?_⟩
    rw [AccessPolicy.renderMessage, hread]
    exact hshown
  · rw [if_neg (Nat.not_le.2 hdepth)] at hread
    refine ⟨hread, ?_⟩
    rw [AccessPolicy.renderMessage, hread]
    rfl

/-! ### Gates inside gates -/

/-- So many gates around one principal. -/
def nested : Nat → Clause
  | 0 => .principal ⟨"A", .member⟩
  | n + 1 => .gate .all [nested n]

def nestedText : Nat → String
  | 0 => "'A.member'"
  | n + 1 => "AND(" ++ nestedText n ++ ")"

theorem length_nestedText (n : Nat) : (nestedText n).length = 5 * n + 10 := by
  induction n with
  | zero => decide
  | succ n ih =>
    have hopen : "AND(".length = 4 := by decide
    have hclose : ")".length = 1 := by decide
    rw [nestedText, String.length_append, String.length_append, ih, hopen, hclose]
    omega

theorem denotes_nested (room n : Nat) :
    Denotes (room + n) (nestedText n).toList (nested n) := by
  induction n with
  | zero =>
    have htext : (nestedText 0).toList = ['\'', 'A', '.', 'm', 'e', 'm', 'b', 'e', 'r', '\''] := by
      decide +kernel
    rw [htext]
    exact .principal (.of_token (@IsLiteral.intro _ '\'' ['m', 'e', 'm', 'b', 'e', 'r'] (.inl rfl)
      (by decide +kernel) (by decide +kernel)))
  | succ n ih =>
    have htext : (nestedText (n + 1)).toList =
        (['A', 'N', 'D'] ++ ['(']) ++ ((nestedText n).toList ++ [')']) := by
      rw [nestedText, String.toList_append, String.toList_append, List.append_assoc]
      rfl
    rw [htext]
    exact .gate (.all (.of_token (by decide)) (.of_token rfl)) (.single ih) (.of_token rfl)
      (Nat.le_succ 1)

theorem length_principals_nested (n : Nat) : (nested n).principals.length = 1 := by
  induction n with
  | zero => rfl
  | succ n ih =>
    rw [nested, Clause.principals, Clause.principalsAll, Clause.principalsAll, List.append_nil]
    exact ih

theorem gateDepth_nested (n next : Nat) : ((nested n).rule next).gateDepth = n := by
  induction n with
  | zero =>
    rw [nested, Clause.rule, SignaturePolicy.gateDepth]
  | succ n ih =>
    rw [nested, Clause.rule, SignaturePolicy.gateDepth, Clause.ruleAll, Clause.ruleAll,
      SignaturePolicy.gateDepthAll, SignaturePolicy.gateDepthAll, ih, Nat.max_zero]

theorem says_nested {n : Nat} (hpos : 0 < n) (h : n ≤ 64) :
    Says (nestedText n).toList (nested n) := by
  obtain ⟨n, rfl⟩ : ∃ left, n = left + 1 := ⟨n - 1, by omega⟩
  refine ⟨⟨_, _, rfl⟩, _, [], (List.append_nil _).symm, ?_, nofun⟩
  have := denotes_nested (64 - (n + 1)) (n + 1)
  rwa [Nat.sub_add_cancel h] at this

theorem compile_nested {n : Nat} (hpos : 0 < n) (h : n ≤ 64) :
    compile (nestedText n) = .ok (nested n).envelope := by
  have hcount : (nested n).principals.length ≤ Expression.maxIdentities := by
    rw [length_principals_nested]
    decide
  rw [(says_nested hpos h).compile_eq, if_pos hcount]

/-- The deepest gates that are read back. -/
theorem compile_reads_back_forty_nine_gates :
    ∃ env shown, compile (nestedText 49) = .ok env ∧ render env = .ok shown ∧
      AccessPolicy.ofMessage (AccessPolicy.signature env).toMessage = .ok (.signature env) ∧
      AccessPolicy.renderMessage (AccessPolicy.signature env).toMessage = .ok shown := by
  have hcompile := compile_nested (n := 49) (by decide) (by decide)
  obtain ⟨rule, shown, hrule, hshown, hread, -⟩ :=
    compile_reads_back (by rw [length_nestedText]; decide) hcompile
  obtain rfl : (nested 49).rule 0 = rule := Option.some.inj hrule
  exact ⟨_, shown, hcompile, hshown, hread (Nat.le_of_eq (gateDepth_nested 49 0))⟩

/-- One gate more compiles and is shown, and is lost on the wire. -/
theorem compile_loses_fifty_gates :
    ∃ env shown, compile (nestedText 50) = .ok env ∧ render env = .ok shown ∧
      AccessPolicy.ofMessage (AccessPolicy.signature env).toMessage = .error (.decode .tooDeep) ∧
      AccessPolicy.renderMessage (AccessPolicy.signature env).toMessage =
        .error (.decode .tooDeep) := by
  have hsaid := says_nested (n := 50) (by decide) (by decide)
  have htext : (nestedText 50).toList.length < 9223372036854775808 := by
    rw [String.length_toList, length_nestedText]
    decide
  have hcount : (nested 50).principals.length ≤ 2147483648 := by
    rw [length_principals_nested]
    decide
  obtain ⟨shown, hshown⟩ := hsaid.render_envelope htext hcount
  have hread := hsaid.ofMessage_envelope htext hcount
  rw [gateDepth_nested, if_neg (by decide)] at hread
  refine ⟨_, shown, compile_nested (by decide) (by decide), hshown, hread, ?_⟩
  rw [AccessPolicy.renderMessage, hread]
  rfl

end Policy

end ChannelConfig
