import ChannelConfig.Proofs.Policy.Principal

/-! The language of policy expressions, on characters and apart from the way it is read: `Says` holds
of the texts of a clause, `Clause.Means` of the envelopes that it stands for. Both leave open what
does not matter. A text may have blanks in front of any token, keywords and roles in any case, either
kind of quotes and zeros in front of a number; none of this is left in the clause. -/

set_option autoImplicit false

namespace ChannelConfig.Policy

/-! ## Clauses -/

/-- How many of its arguments a gate asks for. -/
inductive Quorum where
  | all
  | one
  | exactly (k : Nat)
  deriving DecidableEq, Repr

/-- The number of the quorum at a gate of `count` arguments. -/
def Quorum.number (count : Nat) : Quorum → Nat
  | all => count
  | one => 1
  | exactly k => k

/-- What a policy expression says. -/
inductive Clause where
  | principal (p : Principal)
  | gate (quorum : Quorum) (args : List Clause)

namespace Clause

mutual
/-- The principals, from left to right, equal ones apart. -/
def principals : Clause → List Principal
  | .principal p => [p]
  | .gate _ args => principalsAll args

def principalsAll : List Clause → List Principal
  | [] => []
  | arg :: args => principals arg ++ principalsAll args
end

mutual
/-- The rules of a clause whose principals are numbered from `next`. -/
inductive Rules : Nat → Clause → SignaturePolicy → Prop
  | principal {next : Nat} {p : Principal} {i : Int32} (h : i.toInt = next) :
      Rules next (.principal p) (.signedBy i)
  | gate {next : Nat} {quorum : Quorum} {args : List Clause} {n : Int32}
      {rules : List SignaturePolicy} (hn : n.toInt = quorum.number args.length)
      (hrules : RulesAll next args rules) : Rules next (.gate quorum args) (.nOutOf n rules)

inductive RulesAll : Nat → List Clause → List SignaturePolicy → Prop
  | nil {next : Nat} : RulesAll next [] []
  | cons {next : Nat} {arg : Clause} {args : List Clause} {rule : SignaturePolicy}
      {rules : List SignaturePolicy} (h : Rules next arg rule)
      (hs : RulesAll (next + arg.principals.length) args rules) :
      RulesAll next (arg :: args) (rule :: rules)
end

/-- The envelopes of a clause. -/
structure Means (clause : Clause) (env : SignaturePolicyEnvelope) : Prop where
  version : env.version = 0
  rule : ∃ rule, env.rule = some rule ∧ clause.Rules 0 rule
  identities : env.identities = clause.principals.map Principal.toMessage

end Clause

/-! ## Tokens -/

def Blank (cs : List Char) : Prop := ∀ c ∈ cs, Text.isBlank c = true

instance (cs : List Char) : Decidable (Blank cs) := List.decidableBAll _ cs

/-- A token of the given kind, with blanks in front. -/
inductive Padded (kind : List Char → Prop) : List Char → Prop
  | intro {blanks token : List Char} (hblanks : Blank blanks) (h : kind token) :
      Padded kind (blanks ++ token)

def IsMark (mark : Char) (cs : List Char) : Prop := cs = [mark]

/-- The word in any ASCII case. -/
def IsWord (word : String) (cs : List Char) : Prop := cs.map Char.toLower = word.toList

instance (word : String) (cs : List Char) : Decidable (IsWord word cs) :=
  inferInstanceAs (Decidable (_ = _))

/-- A number of 63 bits in ASCII digits. -/
structure IsNumber (k : Nat) (cs : List Char) : Prop where
  ne_nil : cs ≠ []
  digits : ∀ c ∈ cs, c.isDigit = true
  value : Nat.ofDigitChars 10 cs 0 = k
  le : k ≤ 9223372036854775807

/-- An MSP id and a role between quotes of the same kind. Roles have no points, so the point before
the role is the last one. -/
inductive IsLiteral (p : Principal) : List Char → Prop
  | intro {quote : Char} {role : List Char} (hquote : quote = '\'' ∨ quote = '"') (hid : p.Named)
      (hrole : IsWord p.role.name role) :
      IsLiteral p (quote :: (p.mspId.toList ++ '.' :: role) ++ [quote])

/-! ## Texts -/

/-- What stands in front of the arguments of a gate. -/
inductive Opens : Quorum → List Char → Prop
  | all {word mark : List Char} (hword : Padded (IsWord "and") word)
      (hmark : Padded (IsMark '(') mark) : Opens .all (word ++ mark)
  | one {word mark : List Char} (hword : Padded (IsWord "or") word)
      (hmark : Padded (IsMark '(') mark) : Opens .one (word ++ mark)
  | exactly {k : Nat} {word mark number comma : List Char} (hword : Padded (IsWord "outof") word)
      (hmark : Padded (IsMark '(') mark) (hnumber : Padded (IsNumber k) number)
      (hcomma : Padded (IsMark ',') comma) :
      Opens (.exactly k) (word ++ (mark ++ (number ++ comma)))

mutual
/-- The texts of a clause whose gates are nested at most so deep. -/
inductive Denotes : Nat → List Char → Clause → Prop
  | principal {depth : Nat} {cs : List Char} {p : Principal} (h : Padded (IsLiteral p) cs) :
      Denotes depth cs (.principal p)
  | gate {depth : Nat} {quorum : Quorum} {head body mark : List Char} {args : List Clause}
      (hhead : Opens quorum head) (hargs : DenotesAll depth body args)
      (hmark : Padded (IsMark ')') mark) (hnumber : quorum.number args.length ≤ args.length + 1) :
      Denotes (depth + 1) (head ++ (body ++ mark)) (.gate quorum args)

/-- The texts of at least one clause, with commas between them. -/
inductive DenotesAll : Nat → List Char → List Clause → Prop
  | single {depth : Nat} {cs : List Char} {arg : Clause} (h : Denotes depth cs arg) :
      DenotesAll depth cs [arg]
  | cons {depth : Nat} {cs mark ds : List Char} {arg : Clause} {args : List Clause}
      (h : Denotes depth cs arg) (hmark : Padded (IsMark ',') mark)
      (hs : DenotesAll depth ds args) : DenotesAll depth (cs ++ (mark ++ ds)) (arg :: args)
end

/-- The text is a gate with gates nested at most 64 deep, and blanks. -/
structure Says (text : List Char) (clause : Clause) : Prop where
  isGate : ∃ quorum args, clause = .gate quorum args
  denotes : ∃ gate blanks, text = gate ++ blanks ∧ Denotes 64 gate clause ∧ Blank blanks

end ChannelConfig.Policy
