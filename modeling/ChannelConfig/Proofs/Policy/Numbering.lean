import ChannelConfig.Proofs.Policy.Acceptance
import Mathlib.Data.List.Forall2

/-! The numbers of identities. `literals` cuts a text at its quotes and knows nothing of gates;
`Denotes.quoted` finds in the text of a clause one literal for each of its principals, in the same
order. So the leaves of a compiled rule count the literals of the text from left to right. -/

set_option autoImplicit false

namespace ChannelConfig.Policy

/-! ## Literals of a text -/

def IsQuote (c : Char) : Prop := c = '\'' ∨ c = '"'

instance (c : Char) : Decidable (IsQuote c) := inferInstanceAs (Decidable (_ ∨ _))

/-- What stands between a quote and the next one of the same kind, from left to right. -/
def literals : List Char → List (List Char)
  | [] => []
  | c :: cs =>
    if IsQuote c then cs.takeWhile (· ≠ c) :: literals ((cs.dropWhile (· ≠ c)).drop 1)
    else literals cs
termination_by cs => cs.length
decreasing_by
  · have hdrop := (List.dropWhile_suffix (l := cs) (· ≠ c)).length_le
    simp only [List.length_drop, List.length_cons]
    omega
  · exact Nat.lt_succ_self _

/-- The piece `cs` of a text has the literals `ls`, whatever comes after it. -/
def Quoted (cs : List Char) (ls : List (List Char)) : Prop :=
  ∀ rest, literals (cs ++ rest) = ls ++ literals rest

theorem Quoted.append {cs ds : List Char} {ls ms : List (List Char)} (h : Quoted cs ls)
    (h' : Quoted ds ms) : Quoted (cs ++ ds) (ls ++ ms) := by
  intro rest
  rw [List.append_assoc, h, h', List.append_assoc]

theorem quoted_of_forall_not {cs : List Char} (h : ∀ c ∈ cs, ¬ IsQuote c) : Quoted cs [] := by
  intro rest
  induction cs with
  | nil => rfl
  | cons c cs ih =>
    obtain ⟨hc, hcs⟩ := List.forall_mem_cons.1 h
    rw [List.cons_append, literals, if_neg hc]
    exact ih hcs

theorem quoted_literal {quote : Char} (hquote : IsQuote quote) {inside : List Char}
    (h : quote ∉ inside) : Quoted (quote :: inside ++ [quote]) [inside] := by
  intro rest
  have hrun : ∀ c ∈ inside, decide (c ≠ quote) = true := by
    intro c hc
    rw [decide_eq_true_eq]
    rintro rfl
    exact h hc
  obtain ⟨htake, hdrop⟩ := Text.takeWhile_dropWhile_run hrun quote (by simp) rest
  have hcs : quote :: inside ++ [quote] ++ rest = quote :: (inside ++ quote :: rest) := by simp
  rw [hcs, literals, if_pos hquote, htake, hdrop]
  rfl

theorem Quoted.literals_eq {cs : List Char} {ls : List (List Char)} (h : Quoted cs ls) :
    literals cs = ls := by
  have hend := h []
  rwa [literals, List.append_nil, List.append_nil] at hend

/-! ## Pieces without quotes -/

theorem Blank.quoted {cs : List Char} (h : Blank cs) : Quoted cs [] := by
  refine quoted_of_forall_not fun c hc hquote => ?_
  have hblank := h c hc
  rcases hquote with rfl | rfl <;> revert hblank <;> decide

theorem Padded.quoted {P : List Char → Prop} {cs : List Char} {ls : List (List Char)}
    (h : Padded P cs) (hP : ∀ token, P token → Quoted token ls) : Quoted cs ls := by
  cases h with
  | intro hblanks h => exact (Blank.quoted hblanks).append (hP _ h)

theorem quoted_mark {mark : Char} (hmark : ¬ IsQuote mark) {cs : List Char}
    (h : Padded (IsMark mark) cs) : Quoted cs [] := by
  refine h.quoted fun token htoken => ?_
  rw [IsMark] at htoken
  rw [htoken]
  exact quoted_of_forall_not (List.forall_mem_singleton.2 hmark)

/-- Keywords and numbers are words to the scanner. -/
theorem quoted_of_isAlphanum {cs : List Char} (h : ∀ c ∈ cs, c.isAlphanum = true) :
    Quoted cs [] := by
  refine quoted_of_forall_not fun c hc => ?_
  have hword := Token.isWordChar_of_isAlphanum (h c hc)
  exact (Token.isWordChar_facts hword).2.2.2.2

theorem quoted_keyword (keyword : Keyword) {cs : List Char}
    (h : Padded (IsWord keyword.spelling) cs) : Quoted cs [] := by
  refine h.quoted fun token htoken => quoted_of_isAlphanum fun c hc => ?_
  rw [Char.isAlphanum, htoken.isAlpha.2 c hc, Bool.true_or]

theorem quoted_number {k : Nat} {cs : List Char} (h : Padded (IsNumber k) cs) : Quoted cs [] := by
  refine h.quoted fun token htoken => quoted_of_isAlphanum fun c hc => ?_
  rw [Char.isAlphanum, htoken.digits c hc, Bool.or_true]

theorem Opens.quoted {quorum : Quorum} {cs : List Char} (h : Opens quorum cs) : Quoted cs [] := by
  cases h with
  | all hword hmark => exact (quoted_keyword .and hword).append (quoted_mark (by decide) hmark)
  | one hword hmark => exact (quoted_keyword .or hword).append (quoted_mark (by decide) hmark)
  | exactly hword hmark hnumber hcomma =>
    exact (quoted_keyword .outOf hword).append ((quoted_mark (by decide) hmark).append
      ((quoted_number hnumber).append (quoted_mark (by decide) hcomma)))

/-! ## Literals of a clause -/

/-- The literal names the principal: an MSP id, a point, and a role in any ASCII case. -/
structure NamesPrincipal (literal : List Char) (p : Principal) : Prop where
  named : p.Named
  split : ∃ role, literal = p.mspId.toList ++ '.' :: role ∧ IsWord p.role.name role

theorem IsLiteral.quoted {p : Principal} {cs : List Char} (h : IsLiteral p cs) :
    ∃ literal, Quoted cs [literal] ∧ NamesPrincipal literal p := by
  cases h with
  | @intro quote role hquote hid hrole =>
    exact ⟨_, quoted_literal hquote (quote_notMem_principal hquote hid hrole), hid, role, rfl, hrole⟩

mutual
/-- The text of a clause has a literal for each of its principals, in their order. -/
theorem Denotes.quoted {depth : Nat} {cs : List Char} {clause : Clause} :
    Denotes depth cs clause → ∃ ls, Quoted cs ls ∧ List.Forall₂ NamesPrincipal ls clause.principals
  | .principal (.intro hblanks h) => by
    obtain ⟨literal, hquoted, hnames⟩ := h.quoted
    rw [Clause.principals]
    exact ⟨[literal], (Blank.quoted hblanks).append hquoted, .cons hnames .nil⟩
  | .gate hhead hargs hmark _ => by
    obtain ⟨ls, hquoted, hnames⟩ := hargs.quoted
    have hbody := hquoted.append (quoted_mark (by decide) hmark)
    rw [List.append_nil] at hbody
    rw [Clause.principals]
    exact ⟨ls, hhead.quoted.append hbody, hnames⟩

theorem DenotesAll.quoted {depth : Nat} {cs : List Char} {args : List Clause} :
    DenotesAll depth cs args →
      ∃ ls, Quoted cs ls ∧ List.Forall₂ NamesPrincipal ls (Clause.principalsAll args)
  | .single h => by
    obtain ⟨ls, hquoted, hnames⟩ := h.quoted
    rw [Clause.principalsAll, Clause.principalsAll, List.append_nil]
    exact ⟨ls, hquoted, hnames⟩
  | .cons h hmark hs => by
    obtain ⟨ls, hquoted, hnames⟩ := h.quoted
    obtain ⟨ms, hothers, hnames'⟩ := hs.quoted
    rw [Clause.principalsAll]
    exact ⟨ls ++ ms, hquoted.append ((quoted_mark (by decide) hmark).append hothers),
      List.rel_append hnames hnames'⟩
end

theorem Says.quoted {text : List Char} {clause : Clause} (h : Says text clause) :
    List.Forall₂ NamesPrincipal (literals text) clause.principals := by
  obtain ⟨-, gate, blanks, rfl, hdenotes, hblanks⟩ := h
  obtain ⟨ls, hquoted, hnames⟩ := hdenotes.quoted
  rw [(hquoted.append (Blank.quoted hblanks)).literals_eq, List.append_nil]
  exact hnames

/-! ## Numbers -/

/-- The identity is the role principal that the literal names. -/
def IdentifiedBy (literal : List Char) (identity : MspPrincipal) : Prop :=
  ∃ p, NamesPrincipal literal p ∧ identity = {
    classification := 0
    principal := Wire.encode { mspId := p.mspId, role := p.role.number : MspRole } }

/-- The envelope has an identity for each literal of the text, in their order and equal ones apart,
and the leaves of its rule are all of them, counted from left to right. -/
structure NumbersLiterals (text : List Char) (env : SignaturePolicyEnvelope)
    (rule : SignaturePolicy) : Prop where
  version : env.version = 0
  rule_eq : env.rule = some rule
  isGate : ∃ n rules, rule = .nOutOf n rules
  leaves : rule.leaves.map Int32.toInt = (List.range env.identities.length).map Int.ofNat
  count : env.identities.length = (literals text).length
  identities : List.Forall₂ IdentifiedBy (literals text) env.identities
  proper : rule.Proper env.identities.length 64

/-- Whatever compiles is numbered by its literals, as long as these can be counted in 31 bits. -/
theorem compile_numbers_literals {text : String} {env : SignaturePolicyEnvelope}
    (h : compile text = .ok env) (hcount : (literals text.toList).length < 2147483647) :
    ∃ rule, NumbersLiterals text.toList env rule := by
  obtain ⟨clause, hsaid, rfl⟩ := says_of_compile h
  have hnames := hsaid.quoted
  have hidentities : List.Forall₂ IdentifiedBy (literals text.toList) clause.envelope.identities :=
    List.forall₂_map_right_iff.2 (hnames.imp fun literal p hp => ⟨p, hp, rfl⟩)
  have hlength := hidentities.length_eq
  obtain ⟨rule, ps, henv, hgate, hbuilt⟩ := built_of_compile h (hlength ▸ hcount)
  have hps : clause.envelope.identities.length = ps.length := by
    rw [henv, List.length_map]
  refine ⟨rule, rfl, congrArg SignaturePolicyEnvelope.rule henv, hgate, ?_, hlength.symm,
    hidentities, hps ▸ hbuilt.proper⟩
  rw [hbuilt.leaves_eq, hps, ← List.range_eq_range', List.map_map]
  refine List.map_congr_left fun i hi => ?_
  rw [List.mem_range] at hi
  exact SignaturePolicy.toInt_ofNat (by omega)

/-- The same principal twice, in other letters and inside another gate. -/
def mixedSpelling : String := "outof(3,\"A.b.PEER\", And('A.b.peer' ,'B.admin'))"

theorem compile_numbers_literals_mixed_spelling : ∃ env rule,
    compile mixedSpelling = .ok env ∧
    literals mixedSpelling.toList = ["A.b.PEER", "A.b.peer", "B.admin"].map String.toList ∧
    (literals mixedSpelling.toList).length < 2147483647 ∧
    NumbersLiterals mixedSpelling.toList env rule := by
  have hcompiles : (compile mixedSpelling).toOption.isSome = true := by decide +kernel
  have hliterals : literals mixedSpelling.toList =
      ["A.b.PEER", "A.b.peer", "B.admin"].map String.toList := by
    decide +kernel
  have hcount : (literals mixedSpelling.toList).length < 2147483647 := by
    rw [hliterals]
    decide
  obtain ⟨env, henv⟩ := Option.isSome_iff_exists.1 hcompiles
  have hcompile := eq_ok_of_toOption henv
  obtain ⟨rule, hrule⟩ := compile_numbers_literals hcompile hcount
  exact ⟨env, rule, hcompile, hliterals, hcount, hrule⟩

end ChannelConfig.Policy
