import ChannelConfig.Policy.Expression
import ChannelConfig.Proofs.Result

/-! Parsing of policy expressions, in both directions. `Phrase` is the grammar over tokens;
`parse_eq_ok_iff` says that the parser reads exactly its gates. From it, `parse_tokens`: the tokens
of an expression whose gates are not nested too deep are read as that expression; and
`nested_of_parse`: what is read from tokens is a gate with gates nested no deeper, over principals
that stand in the tokens. -/

set_option autoImplicit false

namespace ChannelConfig.Policy.Expression

/-! ## The grammar over tokens -/

/-- The tokens in front of the arguments of a gate that asks for `k` of `count`. -/
inductive GateHead : Nat → Nat → List Token → Prop where
  | and {name : String} {count : Nat} (h : Keyword.ofWord? name = some .and) :
      GateHead count count [.word name, .openParen]
  | or {name : String} {count : Nat} (h : Keyword.ofWord? name = some .or) :
      GateHead 1 count [.word name, .openParen]
  | outOf {name : String} {k count : Nat} (h : Keyword.ofWord? name = some .outOf) :
      GateHead k count [.word name, .openParen, .number k, .comma]

mutual
/-- The tokens of an expression whose gates are nested at most so deep. -/
inductive Phrase : Nat → List Token → Expression → Prop where
  | principal {depth : Nat} {text : String} : Phrase depth [.literal text] (.principal text)
  | gate {depth k : Nat} {head body : List Token} {args : List Expression}
      (hhead : GateHead k args.length head) (hargs : Phrases depth body args) :
      Phrase (depth + 1) (head ++ (body ++ [.closeParen])) (.gate k args)

/-- The tokens of arguments with commas between them. -/
inductive Phrases : Nat → List Token → List Expression → Prop where
  | single {depth : Nat} {ts : List Token} {e : Expression} (h : Phrase depth ts e) :
      Phrases depth ts [e]
  | cons {depth : Nat} {ts us : List Token} {e : Expression} {es : List Expression}
      (h : Phrase depth ts e) (hs : Phrases depth us es) :
      Phrases depth (ts ++ .comma :: us) (e :: es)
end

theorem Phrase.ne_nil {depth : Nat} {ts : List Token} {e : Expression} (h : Phrase depth ts e) :
    ts ≠ [] := by
  cases h with
  | principal => exact List.cons_ne_nil _ _
  | gate hhead hargs => simp

/-- The gates among the phrases are those that start with a word. -/
theorem Phrase.isGate_iff {depth : Nat} {ts : List Token} {e : Expression} (h : Phrase depth ts e) :
    (∃ k args, e = .gate k args) ↔ ∃ name rest, ts = .word name :: rest := by
  cases h with
  | principal => exact ⟨nofun, nofun⟩
  | gate hhead hargs =>
    exact ⟨fun _ => by cases hhead <;> exact ⟨_, _, rfl⟩, fun _ => ⟨_, _, rfl⟩⟩

theorem Phrases.ne_nil {depth : Nat} {ts : List Token} {es : List Expression}
    (h : Phrases depth ts es) : es ≠ [] := by
  cases h <;> exact List.cons_ne_nil _ _

theorem Phrases.length_le {depth : Nat} : {ts : List Token} → {es : List Expression} →
    Phrases depth ts es → es.length ≤ ts.length
  | _, _, .single h => List.length_pos_iff.2 h.ne_nil
  | _, _, .cons h hs => by
    have := hs.length_le
    simp only [List.length_cons, List.length_append]
    omega

/-! ## Reading a phrase -/

/-- Reads an argument with gates nested at most so deep. -/
def parseArg (depth : Nat) : List Token → Except PolicyFault (Expression × List Token)
  | .literal text :: rest => .ok (.principal text, rest)
  | .word name :: rest => parseGate depth name rest
  | token :: _ => .error (.unrecognized token.shown)
  | [] => .error .unexpectedEnd

theorem parseGate_succ (depth : Nat) (name : String) (ts : List Token) :
    parseGate (depth + 1) name ts =
      match Keyword.ofWord? name with
      | none => .error (.unrecognized name)
      | some keyword =>
        match expect .openParen name ts with
        | .error e => .error e
        | .ok ts => parseGateWith (parseArg depth) keyword name ts := by
  rw [parseGate]
  rfl

theorem parseArg_gate {depth : Nat} {name : String} {keyword : Keyword}
    (h : Keyword.ofWord? name = some keyword) (ts : List Token) :
    parseArg (depth + 1) (.word name :: .openParen :: ts) =
      parseGateWith (parseArg depth) keyword name ts := by
  show parseGate (depth + 1) name (.openParen :: ts) = _
  rw [parseGate_succ, h]
  rfl

/-- A gate is read once its arguments are. -/
theorem GateHead.parseArg_append {depth k : Nat} {head body after : List Token}
    {args : List Expression} (hhead : GateHead k args.length head)
    (hargs : ∀ name, parseArgs (parseArg depth) name body.length body = .ok (args, after)) :
    parseArg (depth + 1) (head ++ body) = .ok (.gate k args, after) := by
  cases hhead with
  | @and name _ h =>
    rw [List.cons_append, List.cons_append, List.nil_append, parseArg_gate h]
    show (parseArgs (parseArg depth) name _ _).map _ = _
    rw [hargs]
    rfl
  | @or name _ h =>
    rw [List.cons_append, List.cons_append, List.nil_append, parseArg_gate h]
    show (parseArgs (parseArg depth) name _ _).map _ = _
    rw [hargs]
    rfl
  | @outOf name _ _ h =>
    rw [List.cons_append, List.cons_append, parseArg_gate h]
    show (parseArgs (parseArg depth) name body.length body).map _ = _
    rw [hargs]
    rfl

mutual
theorem Phrase.parseArg_append {depth : Nat} {ts : List Token} {e : Expression} :
    Phrase depth ts e → ∀ after, parseArg depth (ts ++ after) = .ok (e, after)
  | .principal, _ => rfl
  | .gate hhead hargs, after => by
    rw [List.append_assoc, List.append_assoc]
    refine hhead.parseArg_append fun name => hargs.parseArgs_append ?_ after
    -- the fuel is the number of tokens, of which every argument takes one
    have := hargs.length_le
    rw [List.length_append]
    omega

theorem Phrases.parseArgs_append {depth : Nat} {ts : List Token} {es : List Expression} :
    Phrases depth ts es → ∀ {name : String} {fuel : Nat}, es.length ≤ fuel → ∀ after,
      parseArgs (parseArg depth) name fuel (ts ++ (.closeParen :: after)) = .ok (es, after)
  | .single h, name, fuel + 1, hfuel, after => by
    rw [parseArgs, h.parseArg_append]
  | @Phrases.cons _ ts us e es h hs, name, fuel + 1, hfuel, after => by
    rw [List.append_assoc, List.cons_append, parseArgs, h.parseArg_append]
    show (parseArgs (parseArg depth) name fuel (us ++ .closeParen :: after)).map _ = _
    rw [hs.parseArgs_append (Nat.le_of_succ_le_succ hfuel)]
    rfl
end

/-! ## What is read is a phrase -/

section
variable {depth : Nat} {name : String} {ts rest : List Token}

theorem expect_eq_ok {wanted : Token} (h : expect wanted name ts = .ok rest) :
    ts = wanted :: rest := by
  cases ts with
  | nil => cases h
  | cons t ts =>
    rw [expect] at h
    split at h
    · next ht =>
      cases h
      rw [ht]
    · cases h

theorem parseThreshold_eq_ok {k : Nat} (h : parseThreshold name ts = .ok (k, rest)) :
    ts = .number k :: .comma :: rest := by
  cases ts with
  | nil => cases h
  | cons t ts =>
    cases t with
    | number n =>
      obtain ⟨after, hcomma, h⟩ := exists_of_map_eq_ok h
      cases h
      rw [expect_eq_ok hcomma]
    | word | literal | openParen | closeParen | comma => cases h

/-- Arguments are read one after the other, and there is at least one. -/
theorem phrases_of_parseArgs
    (harg : ∀ {ts e rest}, parseArg depth ts = .ok (e, rest) →
      ∃ us, ts = us ++ rest ∧ Phrase depth us e)
    {fuel : Nat} {args : List Expression}
    (h : parseArgs (parseArg depth) name fuel ts = .ok (args, rest)) :
    ∃ us, ts = us ++ .closeParen :: rest ∧ Phrases depth us args := by
  induction fuel generalizing ts args with
  | zero => cases h
  | succ fuel ih =>
    rw [parseArgs] at h
    split at h
    · cases h
    · next first after hfirst =>
      obtain ⟨us, rfl, hphrase⟩ := harg hfirst
      split at h
      · obtain ⟨⟨args, rest⟩, hargs, h⟩ := exists_of_map_eq_ok h
        cases h
        obtain ⟨vs, rfl, hphrases⟩ := ih hargs
        exact ⟨us ++ .comma :: vs, by rw [List.append_assoc, List.cons_append],
          .cons hphrase hphrases⟩
      · cases h
        exact ⟨us, rfl, .single hphrase⟩
      · cases h
      · cases h

theorem phrase_of_parseGateWith
    (harg : ∀ {ts e rest}, parseArg depth ts = .ok (e, rest) →
      ∃ us, ts = us ++ rest ∧ Phrase depth us e)
    {keyword : Keyword} (hname : Keyword.ofWord? name = some keyword) {e : Expression}
    (h : parseGateWith (parseArg depth) keyword name ts = .ok (e, rest)) :
    ∃ us, .word name :: .openParen :: ts = us ++ rest ∧ Phrase (depth + 1) us e := by
  -- the keywords differ only in what stands in front of the arguments
  have hgate : ∀ {number : List Expression → Nat} {head ts : List Token} {fuel : Nat},
      (∀ args, GateHead (number args) args.length head) →
      (parseArgs (parseArg depth) name fuel ts).map
        (fun read => (gate (number read.1) read.1, read.2)) = .ok (e, rest) →
      ∃ us, head ++ ts = us ++ rest ∧ Phrase (depth + 1) us e := by
    intro number head ts fuel hhead h
    obtain ⟨⟨args, after⟩, hargs, h⟩ := exists_of_map_eq_ok h
    cases h
    obtain ⟨us, rfl, hphrases⟩ := phrases_of_parseArgs harg hargs
    exact ⟨head ++ (us ++ [.closeParen]), by simp, .gate (hhead args) hphrases⟩
  cases keyword with
  | and => exact hgate (fun _ => .and hname) h
  | or => exact hgate (fun _ => .or hname) h
  | outOf =>
    rw [parseGateWith] at h
    split at h
    · cases h
    · next k after hk =>
      obtain rfl := parseThreshold_eq_ok hk
      exact hgate (fun _ => .outOf hname) h

theorem phrase_of_parseArg {e : Expression} (h : parseArg depth ts = .ok (e, rest)) :
    ∃ us, ts = us ++ rest ∧ Phrase depth us e := by
  induction depth generalizing ts e rest with
  | zero =>
    cases ts with
    | nil => cases h
    | cons t ts =>
      cases t with
      | literal text =>
        cases h
        exact ⟨[.literal text], rfl, .principal⟩
      | word name =>
        rw [parseArg, parseGate] at h
        split at h
        · cases h
        · split at h <;> cases h
      | number | openParen | closeParen | comma => cases h
  | succ depth ih =>
    cases ts with
    | nil => cases h
    | cons t ts =>
      cases t with
      | literal text =>
        cases h
        exact ⟨[.literal text], rfl, .principal⟩
      | word name =>
        rw [parseArg, parseGate_succ] at h
        split at h
        · cases h
        · next keyword hkeyword =>
          split at h
          · cases h
          · next after hafter =>
            obtain rfl := expect_eq_ok hafter
            exact phrase_of_parseGateWith ih hkeyword h
      | number | openParen | closeParen | comma => cases h

end

/-- The parser reads exactly the gates of the grammar. -/
theorem parse_eq_ok_iff {ts : List Token} {e : Expression} :
    parse ts = .ok e ↔ (∃ k args, e = .gate k args) ∧ Phrase maxGateDepth ts e := by
  constructor
  · intro h
    cases ts with
    | nil => cases h
    | cons t ts =>
      cases t with
      | word name =>
        rw [parse] at h
        split at h
        · cases h
        · next e' hgate =>
          cases h
          have harg : parseArg maxGateDepth (.word name :: ts) = .ok (e, []) := hgate
          obtain ⟨us, hus, hphrase⟩ := phrase_of_parseArg harg
          rw [List.append_nil] at hus
          subst hus
          exact ⟨hphrase.isGate_iff.2 ⟨name, ts, rfl⟩, hphrase⟩
        · cases h
      | literal | number | openParen | closeParen | comma => cases h
  · rintro ⟨hshape, hphrase⟩
    have hparse := hphrase.parseArg_append []
    obtain ⟨name, rest, rfl⟩ := hphrase.isGate_iff.1 hshape
    rw [List.append_nil] at hparse
    have hgate : parseGate maxGateDepth name rest = .ok (e, []) := hparse
    rw [parse, hgate]

/-! ## Expressions as tokens -/

/-- Gates are nested at most so deep, every gate has arguments, and the texts of the principals
satisfy `P`. -/
inductive Nested (P : String → Prop) : Nat → Expression → Prop where
  | principal {depth : Nat} {text : String} (h : P text) : Nested P depth (.principal text)
  | gate {depth k : Nat} {args : List Expression} (hne : args ≠ [])
      (hargs : ∀ a ∈ args, Nested P depth a) : Nested P (depth + 1) (.gate k args)

/-- The tokens before the arguments of a gate that asks for `k` of `count`. -/
def headTokens (k count : Nat) : List Token :=
  if k = count then [.word "AND", .openParen]
  else if k = 1 then [.word "OR", .openParen]
  else [.word "OutOf", .openParen, .number k, .comma]

mutual
def tokens : Expression → List Token
  | .principal text => [.literal text]
  | .gate k [] => headTokens k 0 ++ [.closeParen]
  | .gate k (first :: args) => headTokens k (args.length + 1) ++ (tokens first ++ tokensRest args)

/-- The arguments after the first one, each behind a comma, and the closing parenthesis. -/
def tokensRest : List Expression → List Token
  | [] => [.closeParen]
  | arg :: args => .comma :: (tokens arg ++ tokensRest args)
end

theorem gateHead_headTokens (k count : Nat) : GateHead k count (headTokens k count) := by
  rw [headTokens]
  split
  · next hk =>
    rw [hk]
    exact .and (by decide)
  · split
    · next hk =>
      rw [hk]
      exact .or (by decide)
    · exact .outOf (by decide)

theorem exists_phrases {depth : Nat} {first : Expression} {args : List Expression}
    (h : ∀ a ∈ first :: args, Phrase depth a.tokens a) :
    ∃ body, first.tokens ++ tokensRest args = body ++ [.closeParen] ∧
      Phrases depth body (first :: args) := by
  have hfirst := h first (List.mem_cons_self ..)
  induction args generalizing first with
  | nil => exact ⟨first.tokens, by rw [tokensRest], .single hfirst⟩
  | cons second args ih =>
    have hrest := fun a ha => h a (List.mem_cons_of_mem first ha)
    obtain ⟨body, hbody, hphrases⟩ := ih hrest (hrest second (List.mem_cons_self ..))
    refine ⟨first.tokens ++ .comma :: body, ?_, .cons hfirst hphrases⟩
    rw [tokensRest, hbody, List.append_assoc, List.cons_append]

/-- The tokens that stand for an expression are a phrase of it. -/
theorem Nested.phrase {P : String → Prop} {depth : Nat} {e : Expression} (h : e.Nested P depth) :
    Phrase depth e.tokens e := by
  induction h with
  | principal h =>
    rw [tokens]
    exact .principal
  | @gate depth k args hne hargs ih =>
    cases args with
    | nil => exact absurd rfl hne
    | cons first args =>
      obtain ⟨body, hbody, hphrases⟩ := exists_phrases ih
      rw [tokens, hbody]
      exact .gate (gateHead_headTokens ..) hphrases

/-- The tokens of a gate are read as that gate. -/
theorem parse_tokens {P : String → Prop} {k : Nat} {args : List Expression}
    (h : (gate k args).Nested P maxGateDepth) : parse (gate k args).tokens = .ok (gate k args) :=
  parse_eq_ok_iff.2 ⟨⟨k, args, rfl⟩, h.phrase⟩

/-! ## Literals in a phrase -/

/-- The literals among the tokens satisfy `P`. -/
def Literals (P : String → Prop) (ts : List Token) : Prop := ∀ text, .literal text ∈ ts → P text

section
variable {P : String → Prop}

theorem literals_append {ts us : List Token} :
    Literals P (ts ++ us) ↔ Literals P ts ∧ Literals P us := by
  constructor
  · intro h
    exact ⟨fun text hmem => h text (List.mem_append_left us hmem),
      fun text hmem => h text (List.mem_append_right ts hmem)⟩
  · rintro ⟨h, h'⟩ text hmem
    exact (List.mem_append.1 hmem).elim (h text) (h' text)

mutual
theorem Phrase.nested {depth : Nat} {ts : List Token} {e : Expression} :
    Phrase depth ts e → Literals P ts → e.Nested P depth
  | .principal, hts => .principal (hts _ (List.mem_cons_self ..))
  | .gate _ hargs, hts => by
    have hbody := (literals_append.1 (literals_append.1 hts).2).1
    exact .gate hargs.ne_nil (hargs.nested hbody)

theorem Phrases.nested {depth : Nat} {ts : List Token} {es : List Expression} :
    Phrases depth ts es → Literals P ts → ∀ e ∈ es, e.Nested P depth
  | .single h, hts => List.forall_mem_singleton.2 (h.nested hts)
  | @Phrases.cons _ _ vs _ _ h hs, hts => by
    obtain ⟨hfirst, hrest⟩ := literals_append.1 hts
    have hrest : Literals P vs := fun text hmem => hrest text (List.mem_cons_of_mem _ hmem)
    exact List.forall_mem_cons.2 ⟨h.nested hfirst, hs.nested hrest⟩
end

/-- What is read from tokens is a gate over their literals. -/
theorem nested_of_parse {ts : List Token} {e : Expression} (hts : Literals P ts)
    (h : parse ts = .ok e) : (∃ k args, e = .gate k args) ∧ e.Nested P maxGateDepth := by
  obtain ⟨hshape, hphrase⟩ := parse_eq_ok_iff.1 h
  exact ⟨hshape, hphrase.nested hts⟩

end

end ChannelConfig.Policy.Expression
