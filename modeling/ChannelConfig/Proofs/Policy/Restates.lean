import ChannelConfig.Proofs.Policy.ReadBack

/-! Whether a shown policy compiles to the policy that it was shown for. Nothing between the quotes of
a principal is checked when it is shown, so an MSP id with a quote in it ends the literal early and
what follows is read as more of the policy. `compile_render_restates_iff`: that is the only way in
which a text that compiles can mean another policy. -/

set_option autoImplicit false

namespace ChannelConfig.Policy

/-! ## The same policy -/

/-- The identity of a leaf. -/
def identity? (env : SignaturePolicyEnvelope) (i : Int32) : Option MspPrincipal :=
  if i < 0 then none else env.identities[i.toInt.toNat]?

mutual
/-- The same gates with the same principals at their leaves, whatever the numbers of these. -/
inductive SameRule (env env' : SignaturePolicyEnvelope) :
    SignaturePolicy → SignaturePolicy → Prop where
  | signedBy {i j : Int32} {m : MspPrincipal} {p : Principal} (hm : identity? env i = some m)
      (hp : Principal.ofMessage m = .ok p) (hj : identity? env' j = some p.toMessage) :
      SameRule env env' (.signedBy i) (.signedBy j)
  | nOutOf {n : Int32} {rules rules' : List SignaturePolicy} (h : SameRules env env' rules rules') :
      SameRule env env' (.nOutOf n rules) (.nOutOf n rules')

inductive SameRules (env env' : SignaturePolicyEnvelope) :
    List SignaturePolicy → List SignaturePolicy → Prop where
  | nil : SameRules env env' [] []
  | cons {rule rule' : SignaturePolicy} {rules rules' : List SignaturePolicy}
      (h : SameRule env env' rule rule') (hs : SameRules env env' rules rules') :
      SameRules env env' (rule :: rules) (rule' :: rules')
end

def Restates (env env' : SignaturePolicyEnvelope) : Prop :=
  ∃ rule rule', env.rule = some rule ∧ env'.rule = some rule' ∧ SameRule env env' rule rule'

/-- No leaf stands for an MSP id with a single quote in it. -/
def QuoteFree (env : SignaturePolicyEnvelope) : Prop :=
  ∀ rule, env.rule = some rule → ∀ i ∈ rule.leaves, ∀ m p, identity? env i = some m →
    Principal.ofMessage m = .ok p → '\'' ∉ p.mspId.toList

/-! ## What a rule is read as -/

mutual
/-- The expression says the rule, over these principals. -/
inductive Expresses (ps : List Principal) : SignaturePolicy → Expression → Prop where
  | signedBy {i : Int32} {p : Principal} (hpos : ¬ i < 0) (hp : ps[i.toInt.toNat]? = some p) :
      Expresses ps (.signedBy i) (.principal p.text)
  | nOutOf {n : Int32} {k : Nat} {rules : List SignaturePolicy} {args : List Expression}
      (hk : n.toInt = k) (h : ExpressesAll ps rules args) :
      Expresses ps (.nOutOf n rules) (.gate k args)

inductive ExpressesAll (ps : List Principal) : List SignaturePolicy → List Expression → Prop where
  | nil : ExpressesAll ps [] []
  | cons {rule : SignaturePolicy} {rules : List SignaturePolicy} {e : Expression}
      {es : List Expression} (h : Expresses ps rule e) (hs : ExpressesAll ps rules es) :
      ExpressesAll ps (rule :: rules) (e :: es)
end

open Expression

/-- The text is cut into tokens that are read, whatever comes after them, as an expression with `P`
or not at all. -/
def ReadsOnlyAs (cs : List Char) (P : Expression → Prop) : Prop :=
  ∃ ts, Token.Scans cs ts ∧ ∀ {depth rest e after},
    parseArg depth (ts ++ rest) = .ok (e, after) → after = rest ∧ P e

/-- The same of the arguments of a gate and the parenthesis that closes it. -/
def ArgsReadOnlyAs (cs : List Char) (P : List Expression → Prop) : Prop :=
  ∃ ts, Token.Scans cs ts ∧ ∀ {depth name fuel rest es after},
    parseArgs (parseArg depth) name fuel (ts ++ rest) = .ok (es, after) → after = rest ∧ P es

theorem ReadsOnlyAs.imp {cs : List Char} {P Q : Expression → Prop} (h : ReadsOnlyAs cs P)
    (hPQ : ∀ e, P e → Q e) : ReadsOnlyAs cs Q := by
  obtain ⟨ts, hscans, hread⟩ := h
  exact ⟨ts, hscans, fun h => (hread h).imp_right (hPQ _)⟩

theorem ArgsReadOnlyAs.imp {cs : List Char} {P Q : List Expression → Prop}
    (h : ArgsReadOnlyAs cs P) (hPQ : ∀ es, P es → Q es) : ArgsReadOnlyAs cs Q := by
  obtain ⟨ts, hscans, hread⟩ := h
  exact ⟨ts, hscans, fun h => (hread h).imp_right (hPQ _)⟩

theorem argsReadOnlyAs_none (P : List Expression → Prop) : ArgsReadOnlyAs [')'] P := by
  -- a parenthesis is no argument, and a gate has at least one
  refine ⟨[.closeParen], Token.scans_closeParen, fun {_ _ fuel _ _ _} h => ?_⟩
  cases fuel <;> cases h

section

variable {cs ds : List Char} {P : Expression → Prop} {Q : List Expression → Prop}

theorem ReadsOnlyAs.single (h : ReadsOnlyAs cs P) :
    ArgsReadOnlyAs (cs ++ [')']) fun es => ∃ e, es = [e] ∧ P e := by
  obtain ⟨ts, hscans, hread⟩ := h
  refine ⟨ts ++ [.closeParen], hscans.append Token.scans_closeParen,
    fun {_ _ fuel rest es after} h => ?_⟩
  cases fuel with
  | zero => cases h
  | succ fuel =>
    rw [List.append_assoc, parseArgs] at h
    split at h
    · cases h
    · next first left hfirst =>
      obtain ⟨rfl, hP⟩ := hread hfirst
      cases h
      exact ⟨rfl, first, rfl, hP⟩

theorem ReadsOnlyAs.cons (h : ReadsOnlyAs cs P) (hs : ArgsReadOnlyAs ds Q) :
    ArgsReadOnlyAs (cs ++ ',' :: ds) fun es => ∃ e rest, es = e :: rest ∧ P e ∧ Q rest := by
  obtain ⟨ts, hscans, hread⟩ := h
  obtain ⟨us, hscans', hreads⟩ := hs
  refine ⟨ts ++ .comma :: us, hscans.append (Token.scans_comma.append hscans'),
    fun {_ _ fuel rest es after} h => ?_⟩
  cases fuel with
  | zero => cases h
  | succ fuel =>
    rw [List.append_assoc, parseArgs] at h
    split at h
    · cases h
    · next first left hfirst =>
      obtain ⟨rfl, hP⟩ := hread hfirst
      obtain ⟨⟨others, left⟩, hothers, h⟩ := exists_of_map_eq_ok h
      cases h
      obtain ⟨rfl, hQ⟩ := hreads hothers
      exact ⟨rfl, first, others, rfl, hP, hQ⟩

end

/-! ## Gates -/

theorem exists_of_parseArg_gate {depth : Nat} {name : String} {keyword : Keyword}
    {ts after : List Token} {e : Expression} (hname : Keyword.ofWord? name = some keyword)
    (h : parseArg depth (.word name :: .openParen :: ts) = .ok (e, after)) :
    ∃ left, parseGateWith (parseArg left) keyword name ts = .ok (e, after) := by
  cases depth with
  | zero =>
    rw [parseArg, parseGate, hname] at h
    cases h
  | succ left =>
    rw [parseArg_gate hname] at h
    exact ⟨left, h⟩

/-- What is read behind the head of a gate are its arguments. -/
theorem exists_of_parseArg_headTokens {depth k count : Nat} {body after : List Token}
    {e : Expression} (h : parseArg depth (headTokens k count ++ body) = .ok (e, after)) :
    ∃ left name fuel args, parseArgs (parseArg left) name fuel body = .ok (args, after) ∧
      e = .gate (if k = count then args.length else k) args := by
  rw [headTokens] at h
  split at h
  · next hall =>
    obtain ⟨left, h⟩ := exists_of_parseArg_gate (by decide : Keyword.ofWord? "AND" = some .and) h
    obtain ⟨⟨args, rest⟩, hargs, h⟩ := exists_of_map_eq_ok h
    cases h
    exact ⟨left, _, _, args, hargs, by rw [if_pos hall]⟩
  · next hsome =>
    split at h
    · next hone =>
      obtain ⟨left, h⟩ := exists_of_parseArg_gate (by decide : Keyword.ofWord? "OR" = some .or) h
      obtain ⟨⟨args, rest⟩, hargs, h⟩ := exists_of_map_eq_ok h
      cases h
      exact ⟨left, _, _, args, hargs, by rw [if_neg hsome, hone]⟩
    · obtain ⟨left, h⟩ := exists_of_parseArg_gate (by decide : Keyword.ofWord? "OutOf" = some .outOf) h
      obtain ⟨⟨args, rest⟩, hargs, h⟩ := exists_of_map_eq_ok h
      cases h
      exact ⟨left, _, _, args, hargs, by rw [if_neg hsome]⟩

/-- A negative number is shown with a sign, which makes it a word. -/
theorem scans_gateHead_of_neg {n : Int32} (hneg : n.toInt < 0) (count : Nat) :
    ∃ word, Token.Scans (gateHead n count).toList
      [.word "OutOf", .openParen, .word word, .comma] := by
  obtain ⟨m, hm⟩ := Int.eq_negSucc_of_lt_zero hneg
  have hone : n ≠ 1 := by
    rintro rfl
    exact absurd hneg (by decide)
  have hshown : toString n = "-" ++ Nat.repr (m + 1) := by
    show toString n.toInt = _
    rw [hm]
    rfl
  have hhead : gateHead n count = "OutOf(" ++ ("-" ++ Nat.repr (m + 1)) ++ "," := by
    rw [gateHead, if_neg (by omega), if_neg hone, hshown]
    rfl
  have hdigits : (Nat.toDigits 10 (m + 1)).all Token.isWordChar = true := by
    rw [List.all_eq_true]
    intro c hc
    exact Token.isWordChar_of_isDigit (Nat.isDigit_of_mem_toDigits (by decide) (by decide) hc)
  have hword := Token.scans_comma.word (by decide) '-' (Nat.toDigits 10 (m + 1)) (by decide) hdigits
  have houtOf : Token.Scans "OutOf(".toList [.word "OutOf", .openParen] :=
    Token.scans_openParen.word (by decide) 'O' ['u', 't', 'O', 'f'] (by decide) (by decide)
  rw [hhead, String.toList_append, String.toList_append, String.toList_append, Nat.toList_repr,
    List.append_assoc]
  exact ⟨_, houtOf.append hword⟩

theorem readsOnlyAs_gate {n : Int32} {count : Nat} {cs : List Char} {P : List Expression → Prop}
    (h : ArgsReadOnlyAs cs fun args => args.length = count ∧ P args) :
    ReadsOnlyAs ((gateHead n count).toList ++ cs) fun e =>
      ∃ k args, e = .gate k args ∧ n.toInt = k ∧ P args := by
  obtain ⟨ts, hscans, hread⟩ := h
  by_cases hneg : n.toInt < 0
  · -- a word in place of the number is not read
    obtain ⟨word, hhead⟩ := scans_gateHead_of_neg hneg count
    refine ⟨_, hhead.append hscans, fun h => ?_⟩
    obtain ⟨left, h⟩ := exists_of_parseArg_gate (by decide : Keyword.ofWord? "OutOf" = some .outOf) h
    cases h
  · have hpos : 0 ≤ n.toInt := Int.not_lt.1 hneg
    refine ⟨_, (SignaturePolicy.scans_gateHead hpos count).append hscans, fun h => ?_⟩
    rw [List.append_assoc] at h
    obtain ⟨left, name, fuel, args, hargs, rfl⟩ := exists_of_parseArg_headTokens h
    obtain ⟨rfl, hlength, hP⟩ := hread hargs
    refine ⟨rfl, _, args, rfl, ?_, hP⟩
    split <;> omega

/-! ## Rules -/

section

variable {ps : List Principal} {depth : Nat}

theorem exists_of_renderRule_signedBy {i : Int32} {text : String}
    (h : renderRule ps depth (.signedBy i) = .ok text) :
    ∃ p, ¬ i < 0 ∧ ps[i.toInt.toNat]? = some p ∧ text = "'" ++ p.text ++ "'" := by
  rw [renderRule] at h
  by_cases hneg : i < 0
  · simp only [if_pos hneg] at h
    cases h
  · simp only [if_neg hneg] at h
    split at h
    · next p hp =>
      cases h
      exact ⟨p, hneg, hp, rfl⟩
    · cases h

theorem exists_of_renderRule_nOutOf {n : Int32} {rules : List SignaturePolicy} {text : String}
    (h : renderRule ps depth (.nOutOf n rules) = .ok text) : ∃ left texts,
      renderRules ps left rules = .ok texts ∧
      text = gateHead n rules.length ++ ",".intercalate texts ++ ")" := by
  cases depth with
  | zero =>
    rw [renderRule] at h
    cases h
  | succ left =>
    rw [renderRule] at h
    obtain ⟨texts, htexts, h⟩ := exists_of_bind_eq_ok h
    cases h
    exact ⟨left, texts, htexts, rfl⟩

theorem exists_of_renderRules_cons {rule : SignaturePolicy} {rules : List SignaturePolicy}
    {texts : List String} (h : renderRules ps depth (rule :: rules) = .ok texts) :
    ∃ text others, renderRule ps depth rule = .ok text ∧
      renderRules ps depth rules = .ok others ∧ texts = text :: others := by
  rw [renderRules] at h
  obtain ⟨text, htext, h⟩ := exists_of_bind_eq_ok h
  obtain ⟨others, hothers, h⟩ := exists_of_bind_eq_ok h
  cases h
  exact ⟨text, others, htext, hothers, rfl⟩

/-- None of these leaves stands for an MSP id with a single quote in it. -/
def NoQuoteAt (ps : List Principal) (leaves : List Int32) : Prop :=
  ∀ i ∈ leaves, ¬ i < 0 → ∀ p, ps[i.toInt.toNat]? = some p → '\'' ∉ p.mspId.toList

theorem noQuoteAt_append {is js : List Int32} :
    NoQuoteAt ps (is ++ js) ↔ NoQuoteAt ps is ∧ NoQuoteAt ps js :=
  List.forall_mem_append

theorem argsReadOnlyAs_of_renderRules {rules : List SignaturePolicy} {texts : List String}
    (hrules : ∀ r ∈ rules, ∀ {depth text}, renderRule ps depth r = .ok text →
      NoQuoteAt ps r.leaves → ReadsOnlyAs text.toList (Expresses ps r))
    (h : renderRules ps depth rules = .ok texts)
    (hquotes : NoQuoteAt ps (SignaturePolicy.leavesAll rules)) :
    ArgsReadOnlyAs ((",".intercalate texts).toList ++ [')']) fun es =>
      es.length = rules.length ∧ ExpressesAll ps rules es := by
  induction rules generalizing texts with
  | nil =>
    rw [renderRules] at h
    cases h
    exact argsReadOnlyAs_none _
  | cons rule rules ih =>
    obtain ⟨text, others, htext, hothers, rfl⟩ := exists_of_renderRules_cons h
    rw [SignaturePolicy.leavesAll, noQuoteAt_append] at hquotes
    have hfirst := hrules rule (List.mem_cons_self ..) htext hquotes.1
    cases rules with
    | nil =>
      rw [renderRules] at hothers
      cases hothers
      refine hfirst.single.imp ?_
      rintro _ ⟨e, rfl, he⟩
      exact ⟨rfl, .cons he .nil⟩
    | cons second rules =>
      have hrest := ih (fun r hr => hrules r (List.mem_cons_of_mem rule hr)) hothers hquotes.2
      obtain ⟨text', others, -, -, rfl⟩ := exists_of_renderRules_cons hothers
      have hjoin : (",".intercalate (text :: text' :: others)).toList ++ [')'] =
          text.toList ++ ',' :: ((",".intercalate (text' :: others)).toList ++ [')']) := by
        rw [String.intercalate_cons_cons, String.toList_append, String.toList_append,
          List.append_assoc, List.append_assoc]
        rfl
      rw [hjoin]
      refine (hfirst.cons hrest).imp ?_
      rintro _ ⟨e, es, rfl, he, hlength, hes⟩
      exact ⟨congrArg (· + 1) hlength, .cons he hes⟩

/-- Without quotes in its names, a rule is shown as a text that is read as that rule if at all. -/
theorem readsOnlyAs_of_renderRule {rule : SignaturePolicy} {text : String}
    (h : renderRule ps depth rule = .ok text) (hquotes : NoQuoteAt ps rule.leaves) :
    ReadsOnlyAs text.toList (Expresses ps rule) := by
  induction rule using SignaturePolicy.ind generalizing depth text with
  | untyped =>
    rw [renderRule] at h
    cases h
  | signedBy i =>
    obtain ⟨p, hpos, hp, rfl⟩ := exists_of_renderRule_signedBy h
    have hquote := hquotes i (List.mem_singleton_self i) hpos p hp
    refine ⟨_, SignaturePolicy.scans_text hquote, fun h => ?_⟩
    cases h
    exact ⟨rfl, .signedBy hpos hp⟩
  | nOutOf n rules ih =>
    obtain ⟨left, texts, htexts, rfl⟩ := exists_of_renderRule_nOutOf h
    rw [SignaturePolicy.leaves] at hquotes
    have hargs := argsReadOnlyAs_of_renderRules (fun r hr {_ _} => ih r hr) htexts hquotes
    rw [String.toList_append, String.toList_append, List.append_assoc]
    refine (readsOnlyAs_gate hargs).imp ?_
    rintro _ ⟨k, args, rfl, hk, hall⟩
    exact .nOutOf hk hall

end

/-! ## Building -/

/-- The principals stand among all, from this number on. -/
def StandAt (all : List Principal) (next : Nat) (ps : List Principal) : Prop := ps <+: all.drop next

section

variable {all ps qs : List Principal} {next : Nat}

theorem StandAt.left (h : StandAt all next (ps ++ qs)) : StandAt all next ps :=
  (List.prefix_append ps qs).trans h

theorem StandAt.right (h : StandAt all next (ps ++ qs)) : StandAt all (next + ps.length) qs := by
  obtain ⟨rest, hrest⟩ := h
  refine ⟨rest, ?_⟩
  rw [← List.drop_drop, ← hrest, List.append_assoc, List.drop_left]

theorem StandAt.getElem? {p : Principal} (h : StandAt all next [p]) : all[next]? = some p := by
  obtain ⟨rest, hrest⟩ := h
  rw [← List.head?_drop, ← hrest]
  rfl

end

theorem mem_of_identity? {env : SignaturePolicyEnvelope} {i : Int32} {m : MspPrincipal}
    (h : identity? env i = some m) : m ∈ env.identities := by
  rw [identity?] at h
  split at h
  · cases h
  · exact List.mem_of_getElem? h

theorem identity?_ofNat {env : SignaturePolicyEnvelope} {n : Nat} (h : n < maxIdentities) :
    identity? env (Int32.ofNat n) = env.identities[n]? := by
  have hint := SignaturePolicy.toInt_ofNat h
  have hpos : ¬ Int32.ofNat n < 0 := by
    rw [Int32.lt_iff_toInt_lt, hint]
    exact Int.not_lt.2 (Int.natCast_nonneg n)
  rw [identity?, if_neg hpos, hint, Int.toNat_natCast]

section

variable {env env' : SignaturePolicyEnvelope} {ps all : List Principal}

mutual
/-- What the expression of a rule is built into restates the rule. -/
theorem Expresses.sameRule {rule : SignaturePolicy} {e : Expression}
    (hps : env.identities.mapM Principal.ofMessage = .ok ps)
    (hall : env'.identities = all.map Principal.toMessage) :
    Expresses ps rule e → ∀ {next rule' qs}, build next e = .ok (rule', qs) →
      StandAt all next qs → SameRule env env' rule rule'
  | .signedBy hpos hp, next, rule', qs, hbuild, hqs => by
    obtain ⟨q, hq, hlt, rfl, rfl⟩ := SignaturePolicy.exists_of_build_principal hbuild
    obtain rfl := eq_of_parsePrincipal_text hq
    obtain ⟨m, hm, hm'⟩ := exists_of_getElem?_mapM hps hp
    refine .signedBy ?_ hm' ?_
    · rw [identity?, if_neg hpos, hm]
    · rw [identity?_ofNat hlt, hall, List.getElem?_map, hqs.getElem?]
      rfl
  | .nOutOf hk hargs, next, rule', qs, hbuild, hqs => by
    obtain ⟨rules', rfl, -, hrules⟩ := SignaturePolicy.exists_of_build_gate hbuild
    rw [SignaturePolicy.ofNat_eq hk]
    exact .nOutOf (hargs.sameRules hps hall hrules hqs)

theorem ExpressesAll.sameRules {rules : List SignaturePolicy} {es : List Expression}
    (hps : env.identities.mapM Principal.ofMessage = .ok ps)
    (hall : env'.identities = all.map Principal.toMessage) :
    ExpressesAll ps rules es → ∀ {next rules' qs}, buildAll next es = .ok (rules', qs) →
      StandAt all next qs → SameRules env env' rules rules'
  | .nil, _, _, _, hbuild, _ => by
    cases hbuild
    exact .nil
  | .cons h hs, next, rules', qs, hbuild, hqs => by
    obtain ⟨rule', others, first, later, rfl, rfl, hrule, hothers⟩ :=
      SignaturePolicy.exists_of_buildAll_cons hbuild
    exact .cons (h.sameRule hps hall hrule hqs.left) (hs.sameRules hps hall hothers hqs.right)
end

end

/-! ## Showing and compiling -/

theorem exists_of_render {env : SignaturePolicyEnvelope} {text : String}
    (h : render env = .ok text) : ∃ ps rule, env.identities.mapM Principal.ofMessage = .ok ps ∧
      env.rule = some rule ∧ renderRule ps maxGateDepth rule = .ok text := by
  rw [render] at h
  obtain ⟨ps, hps, h⟩ := exists_of_bind_eq_ok h
  split at h
  · cases h
  · next rule hrule => exact ⟨ps, rule, hps, hrule, h⟩

theorem QuoteFree.noQuoteAt {env : SignaturePolicyEnvelope} {ps : List Principal}
    {rule : SignaturePolicy} (h : QuoteFree env)
    (hps : env.identities.mapM Principal.ofMessage = .ok ps) (hrule : env.rule = some rule) :
    NoQuoteAt ps rule.leaves := by
  intro i hi hpos p hp
  obtain ⟨m, hm, hm'⟩ := exists_of_getElem?_mapM hps hp
  refine h rule hrule i hi m p ?_ hm'
  rw [identity?, if_neg hpos, hm]

section

variable {env env' : SignaturePolicyEnvelope} {text : String}

theorem QuoteFree.restates (h : QuoteFree env) (hrender : render env = .ok text)
    (hcompile : compile text = .ok env') : Restates env env' := by
  obtain ⟨ps, rule, hps, hrule, htext⟩ := exists_of_render hrender
  obtain ⟨tokens, e, rule', all, hscan, hparse, hbuild, rfl⟩ := exists_of_compile hcompile
  obtain ⟨ts, hscans, hread⟩ := readsOnlyAs_of_renderRule htext (h.noQuoteAt hps hrule)
  -- the tokens that the rule is read from are those of the whole text
  obtain rfl : ts = tokens := by
    have := hscans.scan 0
    rw [hscan] at this
    exact (Except.ok.inj this).symm
  obtain ⟨-, hphrase⟩ := parse_eq_ok_iff.1 hparse
  obtain ⟨-, hexpresses⟩ := hread (hphrase.parseArg_append [])
  have hall : StandAt all 0 all := List.prefix_refl all
  exact ⟨rule, rule', hrule, rfl, hexpresses.sameRule hps rfl hbuild hall⟩

theorem exists_named_of_compile {m : MspPrincipal} (hcompile : compile text = .ok env')
    (hm : m ∈ env'.identities) :
    ∃ p : Principal, p.Named ∧ p.mspId.length ≤ text.length ∧ p.toMessage = m := by
  obtain ⟨clause, hsaid, rfl⟩ := says_of_compile hcompile
  obtain ⟨p, hp, rfl⟩ := List.mem_map.1 hm
  obtain ⟨hnamed, hlength⟩ := hsaid.named p hp
  exact ⟨p, hnamed, hlength, rfl⟩

theorem quoteFree_of_named (h : ∀ m ∈ env.identities, ∃ p : Principal,
    p.Named ∧ p.mspId.length < 9223372036854775808 ∧ p.toMessage = m) : QuoteFree env := by
  intro rule _ i _ m p hm hp
  obtain ⟨q, hnamed, hlength, rfl⟩ := h m (mem_of_identity? hm)
  have hq := Principal.ofMessage_toMessage hnamed hlength
  obtain rfl := Except.ok.inj (hq.symm.trans hp)
  exact hnamed.quote_notMem

/-- Compiled policies have no quotes in their MSP ids, so those with one are made by other means. -/
theorem quoteFree_of_compile (hcompile : compile text = .ok env)
    (htext : text.length < 9223372036854775808) : QuoteFree env := by
  refine quoteFree_of_named fun m hm => ?_
  obtain ⟨p, hnamed, hlength, hp⟩ := exists_named_of_compile hcompile hm
  exact ⟨p, hnamed, Nat.lt_of_le_of_lt hlength htext, hp⟩

mutual
theorem SameRule.quote_notMem {rule rule' : SignaturePolicy}
    (hcompile : compile text = .ok env') :
    SameRule env env' rule rule' → ∀ i ∈ rule.leaves, ∀ m p, identity? env i = some m →
      Principal.ofMessage m = .ok p → '\'' ∉ p.mspId.toList
  | .signedBy hm hp hj, i, hi, m, p, hm', hp' => by
    obtain rfl := List.mem_singleton.1 hi
    obtain rfl := Option.some.inj (hm.symm.trans hm')
    obtain rfl := Except.ok.inj (hp.symm.trans hp')
    -- its principal is one of the compiled policy's, which expressions may name
    obtain ⟨q, hq, -, hmessage⟩ := exists_named_of_compile hcompile (mem_of_identity? hj)
    exact Principal.toMessage_injective hmessage ▸ hq.quote_notMem
  | .nOutOf h, i, hi, m, p, hm, hp => by
    rw [SignaturePolicy.leaves] at hi
    exact h.quote_notMem hcompile i hi m p hm hp

theorem SameRules.quote_notMem {rules rules' : List SignaturePolicy}
    (hcompile : compile text = .ok env') :
    SameRules env env' rules rules' → ∀ i ∈ SignaturePolicy.leavesAll rules, ∀ m p,
      identity? env i = some m → Principal.ofMessage m = .ok p → '\'' ∉ p.mspId.toList
  | .nil, i, hi, _, _, _, _ => by
    cases hi
  | .cons h hs, i, hi, m, p, hm, hp => by
    rw [SignaturePolicy.leavesAll] at hi
    rcases List.mem_append.1 hi with hi | hi
    · exact h.quote_notMem hcompile i hi m p hm hp
    · exact hs.quote_notMem hcompile i hi m p hm hp
end

/-- A policy whose text compiles is restated by what this compiles to exactly if no MSP id in it has a
single quote. -/
theorem compile_render_restates_iff (hrender : render env = .ok text)
    (hcompile : compile text = .ok env') : Restates env env' ↔ QuoteFree env := by
  constructor
  · rintro ⟨rule, rule', hrule, -, hsame⟩ rule₁ hrule₁
    obtain rfl := Option.some.inj (hrule.symm.trans hrule₁)
    exact hsame.quote_notMem hcompile
  · intro hquotes
    exact hquotes.restates hrender hcompile

end

def sharedIdentity : SignaturePolicyEnvelope where
  version := 7
  rule := some nestedGates
  identities := twoPrincipals.map Principal.toMessage

/-- Two leaves of one identity come back as leaves of two, and the gates as they were. -/
theorem compile_render_restates_iff_shared_identity :
    render sharedIdentity = .ok "AND('B-2.admin',OutOf(3,'Org1.example.peer','B-2.admin'))" ∧
      Restates sharedIdentity (normal nestedGates twoPrincipals) := by
  have hrender : render sharedIdentity =
      .ok "AND('B-2.admin',OutOf(3,'Org1.example.peer','B-2.admin'))" :=
    eq_ok_of_toOption (by decide +kernel)
  have hcompile : compile "AND('B-2.admin',OutOf(3,'Org1.example.peer','B-2.admin'))" =
      .ok (normal nestedGates twoPrincipals) := eq_ok_of_toOption (by decide +kernel)
  have hnamed : ∀ p ∈ twoPrincipals, p.Named ∧ p.mspId.length < 9223372036854775808 := by
    decide +kernel
  refine ⟨hrender, (compile_render_restates_iff hrender hcompile).2 (quoteFree_of_named ?_)⟩
  intro m hm
  obtain ⟨p, hp, rfl⟩ := List.mem_map.1 hm
  exact ⟨p, (hnamed p hp).1, (hnamed p hp).2, rfl⟩

/-- An MSP id that ends its literal and starts another. -/
def splitting : Principal := ⟨"A.member','B", .member⟩

/-- A gate over one principal is shown as one over two. -/
theorem compile_render_adds_principal :
    ¬ ∀ env text env', render env = .ok text → compile text = .ok env' → Restates env env' := by
  intro h
  have hrender : render ⟨0, some (.nOutOf 1 [.signedBy 0]), [splitting.toMessage]⟩ =
      .ok "AND('A.member','B.member')" := eq_ok_of_toOption (by decide +kernel)
  have hcompile : compile "AND('A.member','B.member')" =
      .ok ⟨0, some (.nOutOf 2 [.signedBy 0, .signedBy 1]),
        [⟨"A", .member⟩, ⟨"B", .member⟩].map Principal.toMessage⟩ :=
    eq_ok_of_toOption (by decide +kernel)
  obtain ⟨rule, rule', hrule, hrule', hsame⟩ := h _ _ _ hrender hcompile
  obtain rfl := Option.some.inj hrule
  obtain rfl := Option.some.inj hrule'
  -- the one asks for one principal, the other for two
  nomatch hsame

end ChannelConfig.Policy
