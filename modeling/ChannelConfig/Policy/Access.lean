import ChannelConfig.Policy.Expression
import ChannelConfig.Policy.Render

/-!
# Access policies

An access policy either asks for signatures or delegates to the policies of one name in all child
groups: any, all or a majority of them.
-/

set_option autoImplicit false

namespace ChannelConfig

inductive MetaRule where
  | any
  | all
  | majority
  deriving DecidableEq, Repr, Inhabited

namespace MetaRule

def list : List MetaRule := [any, all, majority]

def name : MetaRule → String
  | any => "ANY"
  | all => "ALL"
  | majority => "MAJORITY"

def number : MetaRule → Int32
  | any => 0
  | all => 1
  | majority => 2

def ofNumber? (n : Int32) : Option MetaRule := list.find? (·.number = n)

def ofName? (name : String) : Option MetaRule := list.find? (·.name = name)

@[simp] theorem ofNumber?_number (r : MetaRule) : ofNumber? r.number = some r := by
  cases r <;> decide

end MetaRule

inductive AccessPolicy where
  | implicitMeta (rule : MetaRule) (subPolicy : String)
  | signature (envelope : SignaturePolicyEnvelope)
  deriving DecidableEq, Repr

namespace AccessPolicy

/-- A policy that every request satisfies: it asks for none of no rules. -/
def acceptAll : AccessPolicy := .signature { rule := some (.nOutOf 0 []) }

/-! ## On the wire -/

def signatureType : Int32 := 1

def implicitMetaType : Int32 := 3

def toMessage : AccessPolicy → Policy
  | .implicitMeta rule subPolicy =>
    { type := implicitMetaType
      value := Wire.encode { subPolicy, rule := rule.number : ImplicitMetaPolicy } }
  | .signature envelope => { type := signatureType, value := Wire.encode envelope }

def ofMessage (m : Policy) : Result AccessPolicy :=
  if m.type = implicitMetaType then do
    let p : ImplicitMetaPolicy ← .ofDecode (Wire.decode m.value)
    match MetaRule.ofNumber? p.rule with
    | some rule => .ok (.implicitMeta rule p.subPolicy)
    | none => .invalid (.unknownMetaRule p.rule)
  else if m.type = signatureType then
    (Result.ofDecode (Wire.decode m.value)).map .signature
  else .invalid (.unsupportedPolicyType m.type)

/-! ## As text -/

/-- The parts of a text between single blanks. -/
def splitBlanks : List Char → List (List Char)
  | [] => [[]]
  | c :: cs =>
    match c, splitBlanks cs with
    | ' ', parts => [] :: parts
    | c, part :: parts => (c :: part) :: parts
    | c, [] => [[c]]

/-- A rule and the name of a policy, one blank between them. -/
def parseImplicitMeta (text : String) : Except PolicyFault AccessPolicy :=
  match (splitBlanks text.toList).map String.ofList with
  | [rule, subPolicy] =>
    match MetaRule.ofName? rule with
    | some rule => .ok (.implicitMeta rule subPolicy)
    | none => .error (.unknownMetaRule rule)
  | parts => .error (.metaTokenCount parts.length)

def parseSignature (text : String) : Except PolicyFault AccessPolicy :=
  (Policy.compile text).map .signature

def render : AccessPolicy → Result String
  | .implicitMeta rule subPolicy => .ok (rule.name ++ " " ++ subPolicy)
  | .signature envelope => Policy.render envelope

/-- A policy read from the wire, as text. -/
def renderMessage (m : Policy) : Result String := do (← ofMessage m).render

end AccessPolicy

end ChannelConfig
