import ChannelConfig.Proofs.Policy.Acceptance
import ChannelConfig.Proofs.Policy.Restates

/-! The texts that are shown. Of all the texts of a clause, `Canonical` picks the one without
blanks, with the keyword that says most and every other choice made; a clause has one only if none of
its gates could be said with a plainer keyword. `Canonical.renderRule_eq`: such a text is what its
rule is shown as. `Denotes.exists_canonical`: every clause has the rule of one that has such a text.
So showing what was compiled puts a text into canonical form and leaves that as it is. -/

set_option autoImplicit false

namespace ChannelConfig.Policy

/-! ## Decimals -/

/-- A number in ASCII digits, without zeros in front. -/
structure IsDecimal (k : Nat) (cs : List Char) : Prop where
  ne_nil : cs ≠ []
  digits : ∀ c ∈ cs, c.isDigit = true
  value : Nat.ofDigitChars 10 cs 0 = k
  noZero : cs.head? = some '0' → cs = ['0']

theorem digitChar_of_isDigit {c : Char} (h : c.isDigit = true) :
    c.toNat - '0'.toNat < 10 ∧ Nat.toDigits 10 (c.toNat - '0'.toNat) = [c] := by
  have hpoints : ∀ n < 10, Nat.digitChar n = Char.ofNat (n + 48) := by decide
  have hrange : 48 ≤ c.toNat ∧ c.toNat ≤ 57 := by
    rw [Char.isDigit, Bool.and_eq_true, decide_eq_true_eq, decide_eq_true_eq] at h
    exact ⟨UInt32.le_iff_toNat_le.1 h.1, UInt32.le_iff_toNat_le.1 h.2⟩
  have hvalue : c.toNat - '0'.toNat = c.toNat - 48 := rfl
  rw [hvalue]
  refine ⟨by omega, ?_⟩
  rw [Nat.toDigits_of_lt_base (by omega), hpoints _ (by omega), Nat.sub_add_cancel hrange.1,
    Char.ofNat_toNat]

/-- Digits behind a number that is not 0. -/
theorem toDigits_ofDigitChars {cs : List Char} (h : ∀ c ∈ cs, c.isDigit = true) {n : Nat}
    (hn : 0 < n) : Nat.toDigits 10 (Nat.ofDigitChars 10 cs n) = Nat.toDigits 10 n ++ cs := by
  induction cs generalizing n with
  | nil => rw [List.append_nil]; rfl
  | cons c cs ih =>
    obtain ⟨hc, hcs⟩ := List.forall_mem_cons.1 h
    obtain ⟨hlt, hdigit⟩ := digitChar_of_isDigit hc
    rw [Nat.ofDigitChars_cons, ih hcs (by omega),
      ← Nat.toDigits_append_toDigits (by decide) hn hlt, hdigit, List.append_assoc,
      List.singleton_append]

theorem head?_toDigits {k : Nat} (h : (Nat.toDigits 10 k).head? = some '0') : k = 0 := by
  induction k using Nat.strongRecOn with
  | ind k ih =>
    by_cases hk : k < 10
    · have hpoints : ∀ n < 10, Nat.digitChar n = '0' → n = 0 := by decide
      rw [Nat.toDigits_of_lt_base hk] at h
      exact hpoints k hk (Option.some.inj h)
    · obtain ⟨c, cs, hcs⟩ := List.exists_cons_of_ne_nil (@Nat.toDigits_ne_nil (k / 10) 10)
      rw [Nat.toDigits_of_base_le (by decide) (by omega), hcs] at h
      have hfront := ih (k / 10) (by omega) (hcs ▸ h)
      omega

theorem isDecimal_iff {k : Nat} {cs : List Char} : IsDecimal k cs ↔ cs = Nat.toDigits 10 k := by
  constructor
  · rintro ⟨hne, hdigits, rfl, hzero⟩
    obtain ⟨c, cs, rfl⟩ := List.exists_cons_of_ne_nil hne
    obtain ⟨hc, hcs⟩ := List.forall_mem_cons.1 hdigits
    obtain ⟨-, hdigit⟩ := digitChar_of_isDigit hc
    rw [Nat.ofDigitChars_cons, Nat.mul_zero, Nat.zero_add]
    by_cases hpos : 0 < c.toNat - '0'.toNat
    · rw [toDigits_ofDigitChars hcs hpos, hdigit, List.singleton_append]
    · have hnone : c.toNat - '0'.toNat = 0 := by omega
      rw [hnone, Nat.toDigits_zero] at hdigit
      obtain rfl : '0' = c := (List.cons.inj hdigit).1
      rw [(List.cons.inj (hzero rfl)).2]
      rfl
  · rintro rfl
    refine ⟨Nat.toDigits_ne_nil, fun c hc => Nat.isDigit_of_mem_toDigits (by decide) (by decide) hc,
      Nat.ofDigitChars_ten_toDigits, fun h => ?_⟩
    rw [head?_toDigits h]
    rfl

/-! ## Canonical texts -/

/-- What stands in front of so many arguments: `OR` only if there are several, and a number only if
it is not the one or all of them. -/
inductive CanonicalHead (count : Nat) : Quorum → List Char → Prop
  | all : CanonicalHead count .all ['A', 'N', 'D', '(']
  | one (hcount : 2 ≤ count) : CanonicalHead count .one ['O', 'R', '(']
  | exactly {k : Nat} {digits : List Char} (hdigits : IsDecimal k digits) (hone : k ≠ 1)
      (hall : k ≠ count) (hle : k ≤ count + 1) :
      CanonicalHead count (.exactly k) (['O', 'u', 't', 'O', 'f', '('] ++ (digits ++ [',']))

mutual
/-- The canonical text of a clause whose gates are nested at most so deep. -/
inductive Canonical : Nat → List Char → Clause → Prop
  | principal {depth : Nat} {p : Principal} (hid : p.Named) :
      Canonical depth ('\'' :: (p.mspId.toList ++ '.' :: p.role.name.toList) ++ ['\''])
        (.principal p)
  | gate {depth : Nat} {quorum : Quorum} {head body : List Char} {args : List Clause}
      (hhead : CanonicalHead args.length quorum head) (hargs : CanonicalAll depth body args) :
      Canonical (depth + 1) (head ++ (body ++ [')'])) (.gate quorum args)

/-- The canonical texts of at least one clause, with commas between them. -/
inductive CanonicalAll : Nat → List Char → List Clause → Prop
  | single {depth : Nat} {cs : List Char} {arg : Clause} (h : Canonical depth cs arg) :
      CanonicalAll depth cs [arg]
  | cons {depth : Nat} {cs ds : List Char} {arg : Clause} {args : List Clause}
      (h : Canonical depth cs arg) (hs : CanonicalAll depth ds args) :
      CanonicalAll depth (cs ++ ',' :: ds) (arg :: args)
end

/-- The text is a canonical gate with gates nested at most 64 deep. -/
structure CanonicallySays (text : List Char) (clause : Clause) : Prop where
  isGate : ∃ quorum args, clause = .gate quorum args
  canonical : Canonical 64 text clause

/-! ### Canonical texts are texts -/

theorem CanonicalHead.number_le {count : Nat} {quorum : Quorum} {head : List Char}
    (h : CanonicalHead count quorum head) : quorum.number count ≤ count + 1 := by
  cases h with
  | all => exact Nat.le_succ _
  | one => exact Nat.le_add_left _ _
  | exactly _ _ _ hle => exact hle

theorem CanonicalHead.opens {count : Nat} {quorum : Quorum} {head : List Char}
    (h : CanonicalHead count quorum head) (hcount : count < 9223372036854775807) :
    Opens quorum head := by
  cases h with
  | all => exact .all (.of_token (by decide : IsWord "and" ['A', 'N', 'D'])) (.of_token rfl)
  | one => exact .one (.of_token (by decide : IsWord "or" ['O', 'R'])) (.of_token rfl)
  | @exactly k digits hdigits hone hall hle =>
    have hnumber : IsNumber k digits :=
      ⟨hdigits.ne_nil, hdigits.digits, hdigits.value, by omega⟩
    have hword : IsWord "outof" ['O', 'u', 't', 'O', 'f'] := by decide
    exact @Opens.exactly k _ ['('] digits [','] (.of_token hword) (.of_token rfl)
      (.of_token hnumber) (.of_token rfl)

mutual
theorem Canonical.denotes {depth : Nat} {cs : List Char} {clause : Clause} :
    Canonical depth cs clause → clause.principals.length < 2147483647 → Denotes depth cs clause
  | @Canonical.principal _ p hid, _ => by
    have hrole : IsWord p.role.name p.role.name.toList := by
      rw [IsWord]
      cases p.role <;> decide
    exact .principal (.of_token (.intro (.inl rfl) hid hrole))
  | .gate hhead hargs, hcount => by
    rw [Clause.principals] at hcount
    have hbody := hargs.denotes hcount
    have hlength := hbody.length_le_principals
    exact .gate (hhead.opens (by omega)) hbody (.of_token rfl) hhead.number_le

theorem CanonicalAll.denotes {depth : Nat} {cs : List Char} {args : List Clause} :
    CanonicalAll depth cs args → (Clause.principalsAll args).length < 2147483647 →
      DenotesAll depth cs args
  | .single h, hcount => by
    rw [Clause.principalsAll, Clause.principalsAll, List.append_nil] at hcount
    exact .single (h.denotes hcount)
  | .cons h hs, hcount => by
    rw [Clause.principalsAll, List.length_append] at hcount
    exact .cons (h.denotes (by omega)) (.of_token rfl) (hs.denotes (by omega))
end

theorem CanonicallySays.toSays {text : List Char} {clause : Clause} (h : CanonicallySays text clause)
    (hcount : clause.principals.length < 2147483647) : Says text clause :=
  ⟨h.isGate, text, [], (List.append_nil _).symm, h.canonical.denotes hcount, nofun⟩

/-! ### Canonical texts are what is shown -/

theorem CanonicalHead.gateHead_eq {count : Nat} {quorum : Quorum} {head : List Char}
    (h : CanonicalHead count quorum head) {n : Int32} (hn : n.toInt = quorum.number count) :
    (gateHead n count).toList = head := by
  rw [SignaturePolicy.gateHead_eq hn]
  cases h with
  | all => rw [Quorum.number, if_pos rfl]; rfl
  | one hcount => rw [Quorum.number, if_neg (by omega), if_pos rfl]; rfl
  | @exactly k digits hdigits hone hall hle =>
    rw [Quorum.number, if_neg hall, if_neg hone, String.toList_append, String.toList_append,
      Nat.toList_repr, isDecimal_iff.1 hdigits, List.append_assoc]
    rfl

mutual
theorem Canonical.renderRule_eq {all : List Principal} {depth : Nat} {cs : List Char}
    {clause : Clause} : Canonical depth cs clause →
      ∀ next, next + clause.principals.length < 2147483647 → StandAt all next clause.principals →
      renderRule all depth (clause.rule next) = .ok (String.ofList cs)
  | @Canonical.principal depth p hid, next, hnext, hall => by
    rw [Clause.principals] at hall
    have hint := SignaturePolicy.toInt_ofNat (n := next) (by omega)
    have hat : all[(Int32.ofNat next).toInt.toNat]? = some p := by
      rw [hint, Int.toNat_natCast]
      exact hall.getElem?
    rw [Clause.rule, SignaturePolicy.renderRule_signedBy (by omega) hat, Principal.text]
    refine congrArg Except.ok (String.toList_inj.1 ?_)
    rw [String.toList_ofList, String.toList_append, String.toList_append, String.toList_append,
      String.toList_append, List.append_assoc]
    simp
  | @Canonical.gate depth quorum head body args hhead hargs, next, hnext, hall => by
    rw [Clause.principals] at hnext hall
    have hlength := (hargs.denotes (by omega)).length_le_principals
    have hnumber := hhead.number_le
    have hn := SignaturePolicy.toInt_ofNat (n := quorum.number args.length) (by omega)
    obtain ⟨text, texts, htexts, hbody⟩ := hargs.renderRules_eq next hnext hall
    rw [Clause.rule, SignaturePolicy.renderRule_nOutOf htexts, Clause.length_ruleAll]
    refine congrArg Except.ok (String.toList_inj.1 ?_)
    rw [String.toList_ofList, String.toList_append, String.toList_append, hhead.gateHead_eq hn,
      SignaturePolicy.toList_intercalate_comma, hbody, List.append_assoc]
    rfl

theorem CanonicalAll.renderRules_eq {all : List Principal} {depth : Nat} {cs : List Char}
    {args : List Clause} : CanonicalAll depth cs args →
      ∀ next, next + (Clause.principalsAll args).length < 2147483647 →
      StandAt all next (Clause.principalsAll args) →
      ∃ text texts, renderRules all depth (Clause.ruleAll next args) = .ok (text :: texts) ∧
        text.toList ++ texts.flatMap (fun text => ',' :: text.toList) = cs
  | .single h, next, hnext, hall => by
    rw [Clause.principalsAll, Clause.principalsAll, List.append_nil] at hnext hall
    have htext := h.renderRule_eq next hnext hall
    have hnil : renderRules all depth [] = .ok [] := by rw [renderRules]
    rw [Clause.ruleAll, Clause.ruleAll]
    refine ⟨_, [], SignaturePolicy.renderRules_cons htext hnil, ?_⟩
    rw [String.toList_ofList, List.flatMap_nil, List.append_nil]
  | .cons h hs, next, hnext, hall => by
    rw [Clause.principalsAll, List.length_append] at hnext
    rw [Clause.principalsAll] at hall
    have htext := h.renderRule_eq next (by omega) hall.left
    obtain ⟨second, texts, htexts, rfl⟩ := hs.renderRules_eq _ (by omega) hall.right
    rw [Clause.ruleAll]
    refine ⟨_, second :: texts, SignaturePolicy.renderRules_cons htext htexts, ?_⟩
    rw [String.toList_ofList, List.flatMap_cons]
    rfl
end

theorem mapM_ofMessage {ps : List Principal}
    (h : ∀ p ∈ ps, p.Named ∧ p.mspId.length < 9223372036854775808) :
    (ps.map Principal.toMessage).mapM Principal.ofMessage = .ok ps := by
  refine mapM_eq_ok ?_
  rw [List.map_map]
  exact List.map_congr_left fun p hp => Principal.ofMessage_toMessage (h p hp).1 (h p hp).2

/-- What a canonical text compiles to is shown as that text. -/
theorem CanonicallySays.render_envelope {text : String} {clause : Clause}
    (h : CanonicallySays text.toList clause) (hcount : clause.principals.length < 2147483647)
    (hids : ∀ p ∈ clause.principals, p.Named ∧ p.mspId.length < 9223372036854775808) :
    render clause.envelope = .ok text := by
  have hall : StandAt clause.principals 0 clause.principals := List.prefix_refl _
  have hrule := h.canonical.renderRule_eq 0 (by omega) hall
  rw [String.ofList_toList] at hrule
  rw [render]
  show (List.mapM Principal.ofMessage (clause.principals.map Principal.toMessage) >>= _) = _
  rw [mapM_ofMessage hids]
  exact hrule

/-! ## Canonical clauses -/

/-- The plainest way to ask for the same number of so many arguments. -/
def Quorum.plain (count : Nat) (quorum : Quorum) : Quorum :=
  if quorum.number count = count then .all
  else if quorum.number count = 1 then .one
  else .exactly (quorum.number count)

theorem Quorum.number_plain (count : Nat) (quorum : Quorum) :
    (quorum.plain count).number count = quorum.number count := by
  rw [plain]
  split
  · next hall => exact hall.symm
  · split
    · next hone => exact hone.symm
    · rfl

namespace Clause

mutual
/-- The clause with every gate said in the plainest way. -/
def plain : Clause → Clause
  | .principal p => .principal p
  | .gate quorum args => .gate (quorum.plain args.length) (plainAll args)

def plainAll : List Clause → List Clause
  | [] => []
  | arg :: args => plain arg :: plainAll args
end

theorem length_plainAll (args : List Clause) : (plainAll args).length = args.length := by
  induction args with
  | nil => rw [plainAll]
  | cons arg args ih => rw [plainAll, List.length_cons, List.length_cons, ih]

mutual
theorem principals_plain : (clause : Clause) → clause.plain.principals = clause.principals
  | .principal p => by rw [plain]
  | .gate quorum args => by rw [plain, principals, principals, principalsAll_plain]

theorem principalsAll_plain : (args : List Clause) →
    principalsAll (plainAll args) = principalsAll args
  | [] => by rw [plainAll]
  | arg :: args => by
    rw [plainAll, principalsAll, principalsAll, principals_plain, principalsAll_plain]
end

mutual
/-- The plain clause has the same rule. -/
theorem rule_plain : (next : Nat) → (clause : Clause) → clause.plain.rule next = clause.rule next
  | next, .principal p => by rw [plain]
  | next, .gate quorum args => by
    rw [plain, rule, rule, length_plainAll, Quorum.number_plain, ruleAll_plain]

theorem ruleAll_plain : (next : Nat) → (args : List Clause) →
    ruleAll next (plainAll args) = ruleAll next args
  | next, [] => by rw [plainAll]
  | next, arg :: args => by
    rw [plainAll, ruleAll, ruleAll, rule_plain, principals_plain, ruleAll_plain]
end

theorem envelope_plain (clause : Clause) : clause.plain.envelope = clause.envelope := by
  rw [envelope, envelope, rule_plain, principals_plain]

end Clause

theorem exists_canonicalHead {count : Nat} {quorum : Quorum} (hcount : 0 < count)
    (hnumber : quorum.number count ≤ count + 1) :
    ∃ head, CanonicalHead count (quorum.plain count) head := by
  rw [Quorum.plain]
  split
  · exact ⟨_, .all⟩
  · next hall =>
    split
    · exact ⟨_, .one (by omega)⟩
    · next hone => exact ⟨_, .exactly (isDecimal_iff.2 rfl) hone hall hnumber⟩

mutual
/-- Every clause that has a text has a canonical one once it is plain. -/
theorem Denotes.exists_canonical {depth : Nat} {cs : List Char} {clause : Clause} :
    Denotes depth cs clause → ∃ ds, Canonical depth ds clause.plain
  | .principal (.intro _ (.intro _ hid _)) => by
    rw [Clause.plain]
    exact ⟨_, .principal hid⟩
  | .gate _ hargs _ hnumber => by
    obtain ⟨body, hne, hbody⟩ := hargs.exists_canonical
    obtain ⟨head, hhead⟩ := exists_canonicalHead hne hnumber
    rw [Clause.plain]
    refine ⟨head ++ (body ++ [')']), .gate ?_ hbody⟩
    rwa [Clause.length_plainAll]

theorem DenotesAll.exists_canonical {depth : Nat} {cs : List Char} {args : List Clause} :
    DenotesAll depth cs args → ∃ ds, 0 < args.length ∧ CanonicalAll depth ds (Clause.plainAll args)
  | .single h => by
    obtain ⟨ds, hds⟩ := h.exists_canonical
    rw [Clause.plainAll, Clause.plainAll]
    exact ⟨ds, Nat.one_pos, .single hds⟩
  | .cons h _ hs => by
    obtain ⟨ds, hds⟩ := h.exists_canonical
    obtain ⟨rest, -, hrest⟩ := hs.exists_canonical
    rw [Clause.plainAll]
    exact ⟨_, Nat.succ_pos _, .cons hds hrest⟩
end

/-! ## Showing what was compiled -/

theorem CanonicallySays.compile_eq {text : String} {clause : Clause}
    (h : CanonicallySays text.toList clause) (hcount : clause.principals.length < 2147483647) :
    compile text = .ok clause.envelope := by
  refine (h.toSays hcount).compile_eq.trans (if_pos ?_)
  simp only [Expression.maxIdentities]
  omega

theorem Says.exists_canonicallySays {text : List Char} {clause : Clause} (h : Says text clause) :
    ∃ shown : String, CanonicallySays shown.toList clause.plain := by
  obtain ⟨⟨quorum, args, rfl⟩, gate, blanks, -, hdenotes, -⟩ := h
  obtain ⟨ds, hds⟩ := hdenotes.exists_canonical
  refine ⟨String.ofList ds, ⟨_, _, by rw [Clause.plain]⟩, ?_⟩
  rw [String.toList_ofList]
  exact hds

/-- A canonical text compiles and is shown as it is. Whatever text compiles is shown, as long as its
principals can be counted as a canonical text that compiles to the same envelope, so that showing it
again changes nothing. Texts in memory are shorter than 2^63 bytes. -/
theorem render_compile_canonical :
    (∀ (text : String) clause, text.length < 9223372036854775808 →
      CanonicallySays text.toList clause → clause.principals.length < 2147483647 →
      ∃ env, compile text = .ok env ∧ render env = .ok text) ∧
    ∀ (text : String) env, text.length < 9223372036854775808 → compile text = .ok env →
      ∃ shown, render env = .ok shown ∧ (env.identities.length < 2147483647 →
        (∃ clause, CanonicallySays shown.toList clause) ∧ compile shown = .ok env) := by
  constructor
  · intro text clause htext h hcount
    rw [← String.length_toList] at htext
    refine ⟨clause.envelope, h.compile_eq hcount, h.render_envelope hcount fun p hp => ?_⟩
    obtain ⟨hnamed, hlength⟩ := (h.toSays hcount).named p hp
    exact ⟨hnamed, Nat.lt_of_le_of_lt hlength htext⟩
  · intro text env htext hcompile
    obtain ⟨clause, hsaid, rfl⟩ := says_of_compile hcompile
    have hfits : clause.principals.length ≤ 2147483648 := by
      rw [hsaid.compile_eq] at hcompile
      split at hcompile
      · next hfits => exact hfits
      · cases hcompile
    rw [← String.length_toList] at htext
    obtain ⟨shown, hshown⟩ := hsaid.render_envelope htext hfits
    refine ⟨shown, hshown, fun hcount => ?_⟩
    rw [Clause.envelope, List.length_map] at hcount
    have hids : ∀ p ∈ clause.principals, p.Named ∧ p.mspId.length < 9223372036854775808 := by
      intro p hp
      obtain ⟨hnamed, hlength⟩ := hsaid.named p hp
      exact ⟨hnamed, Nat.lt_of_le_of_lt hlength htext⟩
    -- the plain clause has the same envelope, so its canonical text is the one that is shown
    obtain ⟨canonical, hcanonical⟩ := hsaid.exists_canonicallySays
    rw [← Clause.principals_plain] at hcount hids
    have hrender := hcanonical.render_envelope hcount hids
    rw [Clause.envelope_plain] at hrender
    obtain rfl : shown = canonical := Except.ok.inj (hshown.symm.trans hrender)
    have hagain := hcanonical.compile_eq hcount
    rw [Clause.envelope_plain] at hagain
    exact ⟨⟨_, hcanonical⟩, hagain⟩

/-- None of two gates, one of which asks for one of two principals and the other for all of one. -/
def noneOfTwo : Clause :=
  .gate (.exactly 0) [.gate .one [.principal ⟨"A", .member⟩, .principal ⟨"B-2", .admin⟩],
    .gate .all [.principal ⟨"C", .peer⟩]]

theorem canonicallySays_noneOfTwo :
    CanonicallySays "OutOf(0,OR('A.member','B-2.admin'),AND('C.peer'))".toList noneOfTwo := by
  have htext : "OutOf(0,OR('A.member','B-2.admin'),AND('C.peer'))".toList =
      (['O', 'u', 't', 'O', 'f', '('] ++ (['0'] ++ [','])) ++
        (((['O', 'R', '('] ++
          ((('\'' :: ("A".toList ++ '.' :: "member".toList) ++ ['\'']) ++ ',' ::
            ('\'' :: ("B-2".toList ++ '.' :: "admin".toList) ++ ['\''])) ++ [')'])) ++ ',' ::
        (['A', 'N', 'D', '('] ++
          (('\'' :: ("C".toList ++ '.' :: "peer".toList) ++ ['\'']) ++ [')']))) ++ [')']) := by
    decide +kernel
  have hnone : CanonicalHead 2 (.exactly 0) (['O', 'u', 't', 'O', 'f', '('] ++ (['0'] ++ [','])) :=
    .exactly (isDecimal_iff.2 rfl) (by decide) (by decide) (by decide)
  rw [htext]
  refine ⟨⟨_, _, rfl⟩, .gate hnone (.cons (.gate (.one (by decide)) ?_) (.single (.gate .all ?_)))⟩
  · exact .cons (@Canonical.principal _ ⟨"A", .member⟩ (by decide +kernel))
      (.single (@Canonical.principal _ ⟨"B-2", .admin⟩ (by decide +kernel)))
  · exact .single (@Canonical.principal _ ⟨"C", .peer⟩ (by decide +kernel))

/-- The clause as it is shown, and a gate in odd spelling that asks for one of one. -/
theorem render_compile_canonical_one_of_one :
    (∃ env, compile "OutOf(0,OR('A.member','B-2.admin'),AND('C.peer'))" = .ok env ∧
      render env = .ok "OutOf(0,OR('A.member','B-2.admin'),AND('C.peer'))") ∧
    ∃ env, compile " outOF( 01 ,\"A.b.PEER\")" = .ok env ∧ render env = .ok "AND('A.b.peer')" ∧
      (∃ clause, CanonicallySays "AND('A.b.peer')".toList clause) ∧
      compile "AND('A.b.peer')" = .ok env := by
  have hodd : compile " outOF( 01 ,\"A.b.PEER\")" = .ok onePeer.envelope :=
    eq_ok_of_toOption (by decide +kernel)
  have hshown : render onePeer.envelope = .ok "AND('A.b.peer')" :=
    eq_ok_of_toOption (by decide +kernel)
  obtain ⟨shown, hrender, hsettled⟩ := render_compile_canonical.2 _ _ (by decide) hodd
  obtain rfl : "AND('A.b.peer')" = shown := Except.ok.inj (hshown.symm.trans hrender)
  obtain ⟨hcanonical, hagain⟩ := hsettled (by decide)
  refine ⟨?_, _, hodd, hshown, hcanonical, hagain⟩
  exact render_compile_canonical.1 _ _ (by decide) canonicallySays_noneOfTwo (by decide)

end ChannelConfig.Policy
