import ChannelConfig.Proofs.Policy.Recompile
import ChannelConfig.Proofs.Policy.Spelling

/-! Compiling against the grammar. `says_of_compile`: a text that compiles says a clause, whose
envelope it compiles to; `Says.compile_eq`: a text that says a clause compiles to its envelope, as
long as there are numbers for its principals. Each goes through scanning, parsing and building by one
induction, over the phrase that was read or over the text of the clause. -/

set_option autoImplicit false

namespace ChannelConfig.Policy

namespace Clause

/-! ## The envelope of a clause -/

mutual
/-- The rule of a clause whose principals are numbered from `next`. -/
def rule (next : Nat) : Clause → SignaturePolicy
  | .principal _ => .signedBy (Int32.ofNat next)
  | .gate quorum args => .nOutOf (Int32.ofNat (quorum.number args.length)) (ruleAll next args)

def ruleAll (next : Nat) : List Clause → List SignaturePolicy
  | [] => []
  | arg :: args => rule next arg :: ruleAll (next + arg.principals.length) args
end

def envelope (clause : Clause) : SignaturePolicyEnvelope where
  version := 0
  rule := some (clause.rule 0)
  identities := clause.principals.map Principal.toMessage

end Clause

mutual
theorem Denotes.length_principals_pos {depth : Nat} {cs : List Char} {clause : Clause} :
    Denotes depth cs clause → 0 < clause.principals.length
  | .principal _ => by
    rw [Clause.principals]
    exact Nat.one_pos
  | .gate _ hargs _ _ => by
    have := hargs.length_le_principals
    rw [Clause.principals]
    omega

theorem DenotesAll.length_le_principals {depth : Nat} {cs : List Char} {args : List Clause} :
    DenotesAll depth cs args →
      0 < args.length ∧ args.length ≤ (Clause.principalsAll args).length
  | .single h => by
    have := h.length_principals_pos
    rw [Clause.principalsAll, Clause.principalsAll, List.append_nil]
    exact ⟨Nat.one_pos, this⟩
  | .cons h _ hs => by
    have := h.length_principals_pos
    have := hs.length_le_principals
    rw [Clause.principalsAll, List.length_append, List.length_cons]
    omega
end

mutual
/-- The numbers of a clause with fewer principals than 31 bits can count are exact. -/
theorem Denotes.rules {depth : Nat} {cs : List Char} {clause : Clause} :
    Denotes depth cs clause → ∀ next, next + clause.principals.length < 2147483647 →
      clause.Rules next (clause.rule next)
  | .principal _, next, hnext => by
    rw [Clause.rule]
    exact .principal (SignaturePolicy.toInt_ofNat (by omega))
  | .gate _ hargs _ hnumber, next, hnext => by
    have := hargs.length_le_principals
    rw [Clause.principals] at hnext
    rw [Clause.rule]
    exact .gate (SignaturePolicy.toInt_ofNat (by omega)) (hargs.rules next hnext)

theorem DenotesAll.rules {depth : Nat} {cs : List Char} {args : List Clause} :
    DenotesAll depth cs args → ∀ next, next + (Clause.principalsAll args).length < 2147483647 →
      Clause.RulesAll next args (Clause.ruleAll next args)
  | .single h, next, hnext => by
    rw [Clause.principalsAll, Clause.principalsAll, List.append_nil] at hnext
    rw [Clause.ruleAll, Clause.ruleAll]
    exact .cons (h.rules next hnext) .nil
  | .cons h _ hs, next, hnext => by
    rw [Clause.principalsAll, List.length_append] at hnext
    rw [Clause.ruleAll]
    exact .cons (h.rules next (by omega)) (hs.rules _ (by omega))
end

/-! ## What compiles -/

mutual
theorem Expression.Phrase.exists_denotes {depth : Nat} {ts : List Token} {e : Expression} :
    Expression.Phrase depth ts e → ∀ {cs next rule ps}, Spelled ts cs →
      Expression.build next e = .ok (rule, ps) →
      ∃ clause, Denotes depth cs clause ∧ rule = clause.rule next ∧ ps = clause.principals
  | .principal, cs, next, rule, ps, hs, hbuild => by
    obtain ⟨p, hp, -, rfl, rfl⟩ := SignaturePolicy.exists_of_build_principal hbuild
    have hliteral := (Spelled.singleton_iff.1 hs).map fun _ h => h.isLiteral hp
    exact ⟨.principal p, .principal hliteral, by rw [Clause.rule], by rw [Clause.principals]⟩
  | .gate hhead hargs, cs, next, rule, ps, hs, hbuild => by
    obtain ⟨head, rest, rfl, hopens, hs⟩ := Spelled.append_iff.1 hs
    obtain ⟨body, mark, rfl, hbody, hmark⟩ := Spelled.append_iff.1 hs
    obtain ⟨rules, rfl, hk, hrules⟩ := SignaturePolicy.exists_of_build_gate hbuild
    obtain ⟨quorum, rfl, hopens⟩ := opens_of_spelled hhead hopens
    obtain ⟨clauses, hdenotes, hlength, rfl, rfl⟩ := hargs.exists_denotes hbody hrules
    have hmark := (Spelled.singleton_iff.1 hmark).map fun _ => Lexeme.isMark.2.1
    rw [← hlength] at hk ⊢
    exact ⟨.gate quorum clauses, .gate hopens hdenotes hmark hk, by rw [Clause.rule],
      by rw [Clause.principals]⟩

theorem Expression.Phrases.exists_denotes {depth : Nat} {ts : List Token} {es : List Expression} :
    Expression.Phrases depth ts es → ∀ {cs next rules ps}, Spelled ts cs →
      Expression.buildAll next es = .ok (rules, ps) →
      ∃ clauses, DenotesAll depth cs clauses ∧ clauses.length = es.length ∧
        rules = Clause.ruleAll next clauses ∧ ps = Clause.principalsAll clauses
  | .single h, cs, next, rules, ps, hspelled, hbuild => by
    obtain ⟨rule, _, qs, _, rfl, rfl, hrule, hnil⟩ :=
      SignaturePolicy.exists_of_buildAll_cons hbuild
    obtain ⟨clause, hdenotes, rfl, rfl⟩ := h.exists_denotes hspelled hrule
    cases hnil
    exact ⟨[clause], .single hdenotes, rfl, by rw [Clause.ruleAll, Clause.ruleAll],
      by rw [Clause.principalsAll, Clause.principalsAll]⟩
  | .cons h hs, cs, next, rules, ps, hspelled, hbuild => by
    obtain ⟨first, rest, rfl, hfirst, hspelled⟩ := Spelled.append_iff.1 hspelled
    obtain ⟨mark, others, rfl, hmark, hothers⟩ := Spelled.cons_iff.1 hspelled
    obtain ⟨rule, _, qs, _, rfl, rfl, hrule, hrules⟩ :=
      SignaturePolicy.exists_of_buildAll_cons hbuild
    obtain ⟨clause, hdenotes, rfl, rfl⟩ := h.exists_denotes hfirst hrule
    obtain ⟨clauses, hall, hlength, rfl, rfl⟩ := hs.exists_denotes hothers hrules
    have hmark := hmark.map fun _ => Lexeme.isMark.2.2
    exact ⟨clause :: clauses, .cons hdenotes hmark hall, congrArg (· + 1) hlength,
      by rw [Clause.ruleAll], by rw [Clause.principalsAll]⟩
end

/-- A text that compiles says a clause, and it compiles to the envelope of that clause. -/
theorem says_of_compile {text : String} {env : SignaturePolicyEnvelope}
    (h : compile text = .ok env) :
    ∃ clause, Says text.toList clause ∧ env = clause.envelope := by
  obtain ⟨tokens, e, rule, ps, hscan, hparse, hbuild, rfl⟩ := exists_of_compile h
  obtain ⟨⟨k, args, rfl⟩, hphrase⟩ := Expression.parse_eq_ok_iff.1 hparse
  obtain ⟨gate, blanks, htext, hspelled, hblanks⟩ := spelled_of_scan hscan
  obtain ⟨clause, hdenotes, hrule, rfl⟩ := hphrase.exists_denotes hspelled hbuild
  obtain ⟨rules, rfl, -⟩ := SignaturePolicy.exists_of_build_gate hbuild
  refine ⟨clause, ⟨?_, gate, blanks, htext, hdenotes, hblanks⟩, ?_⟩
  · cases clause with
    | principal p =>
      rw [Clause.rule] at hrule
      cases hrule
    | gate quorum args => exact ⟨quorum, args, rfl⟩
  · rw [Clause.envelope, hrule]

/-! ## What says a clause -/

/-- The expression is built into the rule of the clause, as long as there are numbers for its
principals. -/
def Builds (e : Expression) (clause : Clause) : Prop :=
  ∀ next, next ≤ Expression.maxIdentities → Expression.build next e =
    if next + clause.principals.length ≤ Expression.maxIdentities
    then .ok (clause.rule next, clause.principals) else .error .tooManyPrincipals

def BuildsAll (es : List Expression) (clauses : List Clause) : Prop :=
  ∀ next, next ≤ Expression.maxIdentities → Expression.buildAll next es =
    if next + (Clause.principalsAll clauses).length ≤ Expression.maxIdentities
    then .ok (Clause.ruleAll next clauses, Clause.principalsAll clauses)
    else .error .tooManyPrincipals

theorem builds_principal {text : String} {p : Principal}
    (h : Expression.parsePrincipal text = .ok p) : Builds (.principal text) (.principal p) := by
  intro next hnext
  rw [Expression.build, h, Clause.principals, Clause.rule]
  rfl

theorem builds_gate {quorum : Quorum} {es : List Expression} {clauses : List Clause}
    (hlength : es.length = clauses.length)
    (hnumber : quorum.number clauses.length ≤ clauses.length + 1) (h : BuildsAll es clauses) :
    Builds (.gate (quorum.number es.length) es) (.gate quorum clauses) := by
  intro next hnext
  rw [Expression.build, hlength, if_neg (Nat.not_lt.2 hnumber), h next hnext, Clause.principals,
    Clause.rule]
  by_cases hfit : next + (Clause.principalsAll clauses).length ≤ Expression.maxIdentities
  · rw [if_pos hfit, if_pos hfit]
  · rw [if_neg hfit, if_neg hfit]

theorem builds_nil : BuildsAll [] [] := by
  intro next hnext
  rw [Expression.buildAll, Clause.principalsAll, Clause.ruleAll]
  exact (if_pos hnext).symm

theorem Builds.cons {e : Expression} {es : List Expression} {clause : Clause}
    {clauses : List Clause} (h : Builds e clause) (hs : BuildsAll es clauses) :
    BuildsAll (e :: es) (clause :: clauses) := by
  intro next hnext
  rw [Expression.buildAll, h next hnext, Clause.principalsAll, List.length_append, Clause.ruleAll]
  by_cases hfirst : next + clause.principals.length ≤ Expression.maxIdentities
  · simp only [if_pos hfirst, hs _ hfirst, Nat.add_assoc]
    by_cases hfit : next + (clause.principals.length + (Clause.principalsAll clauses).length) ≤
        Expression.maxIdentities
    · rw [if_pos hfit, if_pos hfit]
    · rw [if_neg hfit, if_neg hfit]
  · rw [if_neg hfirst, if_neg (by omega)]

mutual
theorem Denotes.exists_phrase {depth : Nat} {cs : List Char} {clause : Clause} :
    Denotes depth cs clause → ∃ ts e, Token.Scans cs ts ∧ Expression.Phrase depth ts e ∧
      Builds e clause ∧ ∀ quorum args, clause = .gate quorum args → ∃ k es, e = .gate k es
  | .principal h => by
    obtain ⟨text, hparse, hscans⟩ := scans_principal h
    exact ⟨_, _, hscans, .principal, builds_principal hparse, nofun⟩
  | .gate hopens hargs hmark hnumber => by
    obtain ⟨body, es, hscans, hphrases, hlength, hbuilds⟩ := hargs.exists_phrases
    obtain ⟨head, hhead, hgate⟩ := hopens.scans es.length
    exact ⟨_, _, hhead.append (hscans.append (scans_mark.2.1 hmark)), .gate hgate hphrases,
      builds_gate hlength hnumber hbuilds, fun _ _ _ => ⟨_, _, rfl⟩⟩

theorem DenotesAll.exists_phrases {depth : Nat} {cs : List Char} {clauses : List Clause} :
    DenotesAll depth cs clauses → ∃ ts es, Token.Scans cs ts ∧ Expression.Phrases depth ts es ∧
      es.length = clauses.length ∧ BuildsAll es clauses
  | .single h => by
    obtain ⟨ts, e, hscans, hphrase, hbuilds, -⟩ := h.exists_phrase
    exact ⟨ts, [e], hscans, .single hphrase, rfl, hbuilds.cons builds_nil⟩
  | .cons h hmark hs => by
    obtain ⟨ts, e, hscans, hphrase, hbuilds, -⟩ := h.exists_phrase
    obtain ⟨us, es, hothers, hphrases, hlength, hall⟩ := hs.exists_phrases
    exact ⟨_, e :: es, hscans.append ((scans_mark.2.2 hmark).append hothers),
      .cons hphrase hphrases, congrArg (· + 1) hlength, hbuilds.cons hall⟩
end

/-- A text that says a clause compiles to its envelope if there are numbers for its principals. -/
theorem Says.compile_eq {text : String} {clause : Clause} (h : Says text.toList clause) :
    compile text =
      if clause.principals.length ≤ Expression.maxIdentities then .ok clause.envelope
      else .error .tooManyPrincipals := by
  obtain ⟨⟨quorum, args, rfl⟩, gate, blanks, htext, hdenotes, hblanks⟩ := h
  obtain ⟨ts, e, hscans, hphrase, hbuilds, hshape⟩ := hdenotes.exists_phrase
  have hscan : Token.scan 0 text.toList = .ok ts := by
    have := (hscans.append (Token.scans_blanks hblanks)).scan 0
    rwa [List.append_nil, ← htext] at this
  have hparse : Expression.parse ts = .ok e :=
    Expression.parse_eq_ok_iff.2 ⟨hshape quorum args rfl, hphrase⟩
  rw [compile, hscan]
  show (Expression.parse ts >>= _) = _
  rw [hparse]
  show (Expression.build 0 e >>= _) = _
  rw [hbuilds 0 (Nat.zero_le _), Nat.zero_add]
  by_cases hfit : (Clause.gate quorum args).principals.length ≤ Expression.maxIdentities
  · rw [if_pos hfit, if_pos hfit]
    rfl
  · rw [if_neg hfit, if_neg hfit]
    rfl

/-! ## Compiling and the grammar -/

theorem Says.means {text : List Char} {clause : Clause} (h : Says text clause)
    (hcount : clause.principals.length < 2147483647) : clause.Means clause.envelope := by
  obtain ⟨-, gate, blanks, -, hdenotes, -⟩ := h
  exact ⟨rfl, ⟨clause.rule 0, rfl, hdenotes.rules 0 (by omega)⟩, rfl⟩

/-- Of the texts with fewer than 2^31 - 1 principals those compile that say a clause, and each to an
envelope of what it says. Texts of the same clause compile alike, and all others are refused. -/
theorem compile_accepts_grammar (text : String) :
    (∀ clause, Says text.toList clause → clause.principals.length < 2147483647 →
      ∃ env, compile text = .ok env ∧ clause.Means env) ∧
    (∀ env, compile text = .ok env → env.identities.length < 2147483647 →
      ∃ clause, Says text.toList clause ∧ clause.Means env) ∧
    (∀ (other : String) clause, Says text.toList clause → Says other.toList clause →
      compile other = compile text) ∧
    ((¬ ∃ clause, Says text.toList clause) →
      ∃ fault, Result.ofPolicy (compile text) = .error (.parse [] fault)) := by
  refine ⟨fun clause h hcount => ?_, fun env h hcount => ?_, fun other clause h h' => ?_,
    fun h => ?_⟩
  · have hfits : clause.principals.length ≤ Expression.maxIdentities := by
      simp only [Expression.maxIdentities]
      omega
    exact ⟨clause.envelope, h.compile_eq.trans (if_pos hfits), h.means hcount⟩
  · obtain ⟨clause, hsaid, rfl⟩ := says_of_compile h
    rw [Clause.envelope, List.length_map] at hcount
    exact ⟨clause, hsaid, hsaid.means hcount⟩
  · rw [h.compile_eq, h'.compile_eq]
  · cases hc : compile text with
    | error fault => exact ⟨fault, rfl⟩
    | ok env =>
      obtain ⟨clause, hsaid, -⟩ := says_of_compile hc
      exact absurd ⟨clause, hsaid⟩ h

/-- One of one principal, whose MSP id has a point. -/
def onePeer : Clause := .gate (.exactly 1) [.principal ⟨"A.b", .peer⟩]

theorem says_onePeer {word number literal blanks : List Char} (hword : Padded (IsWord "outof") word)
    (hnumber : Padded (IsNumber 1) number)
    (hliteral : Padded (IsLiteral ⟨"A.b", .peer⟩) literal) (hblanks : Blank blanks) :
    Says (word ++ (['('] ++ (number ++ [','])) ++ (literal ++ [')']) ++ blanks) onePeer :=
  ⟨⟨_, _, rfl⟩, _, blanks, rfl, .gate (.exactly hword (.of_token rfl) hnumber (.of_token rfl))
    (.single (.principal hliteral)) (.of_token rfl) (by decide), hblanks⟩

/-- The clause with its keyword and role in odd case, blanks, double quotes and a leading zero; the
clause as it is shown; and a gate without arguments. -/
theorem compile_accepts_grammar_odd_spelling :
    ∃ env, compile " outOF( 01,\"A.b.PEER\")\n" = .ok env ∧ onePeer.Means env ∧
      compile "OutOf(1,'A.b.peer')" = .ok env ∧
      (∃ clause, Says "OutOf(1,'A.b.peer')".toList clause ∧ clause.Means env) ∧
      ∃ fault, Result.ofPolicy (compile "AND()") = .error (.parse [] fault) := by
  have hodd : Says " outOF( 01,\"A.b.PEER\")\n".toList onePeer := by
    have htext : " outOF( 01,\"A.b.PEER\")\n".toList =
        ([' '] ++ ['o', 'u', 't', 'O', 'F']) ++ (['('] ++ (([' '] ++ ['0', '1']) ++ [','])) ++
          (['"', 'A', '.', 'b', '.', 'P', 'E', 'E', 'R', '"'] ++ [')']) ++ ['\n'] := by
      decide +kernel
    rw [htext]
    refine says_onePeer (.intro (by decide +kernel) (by decide +kernel))
      (.intro (by decide +kernel) ?_) (.of_token ?_) (by decide +kernel)
    · exact ⟨List.cons_ne_nil _ _, List.all_eq_true.1 (by decide), by decide, by decide⟩
    · exact @IsLiteral.intro _ '"' ['P', 'E', 'E', 'R'] (.inr rfl) (by decide +kernel)
        (by decide +kernel)
  have hplain : Says "OutOf(1,'A.b.peer')".toList onePeer := by
    have htext : "OutOf(1,'A.b.peer')".toList =
        (['O', 'u', 't', 'O', 'f'] ++ (['('] ++ (['1'] ++ [','])) ++
          (['\'', 'A', '.', 'b', '.', 'p', 'e', 'e', 'r', '\''] ++ [')']) ++ []) := by
      decide +kernel
    rw [htext]
    refine says_onePeer (.of_token (by decide +kernel)) (.of_token ?_) (.of_token ?_) nofun
    · exact ⟨List.cons_ne_nil _ _, List.all_eq_true.1 (by decide), by decide, by decide⟩
    · exact @IsLiteral.intro _ '\'' ['p', 'e', 'e', 'r'] (.inl rfl) (by decide +kernel)
        (by decide +kernel)
  have hempty : ¬ ∃ clause, Says "AND()".toList clause := by
    rintro ⟨clause, hsaid⟩
    have hscan : Token.scan 0 "AND()".toList = .ok [.word "AND", .openParen, .closeParen] :=
      ((Token.scans_openParen.word (by decide) 'A' ['N', 'D'] (by decide) (by decide)).append
        Token.scans_closeParen).scan 0
    have hparse : Expression.parse [.word "AND", .openParen, .closeParen] =
        .error (.unrecognized ")") := by
      rfl
    have hcompile : compile "AND()" = .error (.unrecognized ")") := by
      rw [compile, hscan]
      simp only [bind, Except.bind, hparse]
    rw [hsaid.compile_eq] at hcompile
    split at hcompile <;> cases hcompile
  obtain ⟨env, henv, hmeans⟩ := (compile_accepts_grammar _).1 _ hodd (by decide)
  have halike := ((compile_accepts_grammar _).2.2.1 _ _ hodd hplain).trans henv
  have hcount : env.identities.length < 2147483647 := by
    rw [hmeans.identities]
    decide
  exact ⟨env, henv, hmeans, halike, (compile_accepts_grammar _).2.1 env halike hcount,
    (compile_accepts_grammar _).2.2.2 hempty⟩

end ChannelConfig.Policy
