import ChannelConfig.Policy.Token
import ChannelConfig.Policy.Principal

/-!
# Policy expressions

    policy    = gate
    gate      = ("AND" | "OR") "(" arg ("," arg)* ")"
              | "OutOf" "(" number "," arg ("," arg)* ")"
    arg       = principal | gate
    principal = "'" MSP id "." role "'"

Every gate asks for so many of its arguments: `AND` for all, `OR` for one, `OutOf` for the number it
gives. `Expression.parse` reads tokens into gates; `Expression.build` checks numbers and principals
and counts the principals from left to right, equal ones apart. `compile` is scanning, parsing and
building; all errors of an earlier stage come before those of a later one.
-/

set_option autoImplicit false

namespace ChannelConfig.Policy

/-- A gate over principals and gates; `k` of the arguments are asked for. -/
inductive Expression where
  | principal (text : String)
  | gate (k : Nat) (args : List Expression)
  deriving Repr, Inhabited

inductive Keyword where
  | and
  | or
  | outOf
  deriving DecidableEq, Repr

/-- Keywords are known in any ASCII case. -/
def Keyword.ofWord? (word : String) : Option Keyword :=
  let lower := word.toList.map Char.toLower
  if lower = "and".toList then some .and
  else if lower = "or".toList then some .or
  else if lower = "outof".toList then some .outOf
  else none

namespace Expression

/-! ## Parsing -/

/-- Reads a wanted token inside a gate. -/
def expect (wanted : Token) (gate : String) : List Token → Except PolicyFault (List Token)
  | [] => .error (.expected wanted.shown gate none)
  | token :: rest =>
    if token = wanted then .ok rest else .error (.expected wanted.shown gate (some token.shown))

/-- Reads arguments up to the closing parenthesis. There are at most as many as tokens. -/
def parseArgs (arg : List Token → Except PolicyFault (Expression × List Token)) (gate : String) :
    Nat → List Token → Except PolicyFault (List Expression × List Token)
  | 0, _ => .error .unexpectedEnd
  | fuel + 1, tokens =>
    match arg tokens with
    | .error e => .error e
    | .ok (first, rest) =>
      match rest with
      | .comma :: rest =>
        (parseArgs arg gate fuel rest).map fun (args, rest) => (first :: args, rest)
      | .closeParen :: rest => .ok ([first], rest)
      | token :: _ => .error (.unexpectedArgument token.shown gate)
      | [] => .error (.unclosed gate)

/-- The number of an `OutOf` and the comma after it. -/
def parseThreshold (gate : String) : List Token → Except PolicyFault (Nat × List Token)
  | .number n :: rest => (expect .comma gate rest).map (n, ·)
  | token :: _ => .error (.expectedNumber gate token.shown)
  | [] => .error .unexpectedEnd

/-- Reads a gate whose word has been read, with the given reading of arguments. -/
def parseGateWith (arg : List Token → Except PolicyFault (Expression × List Token))
    (keyword : Keyword) (gate : String) (tokens : List Token) :
    Except PolicyFault (Expression × List Token) :=
  match keyword with
  | .and => (parseArgs arg gate tokens.length tokens).map fun (args, rest) =>
      (.gate args.length args, rest)
  | .or => (parseArgs arg gate tokens.length tokens).map fun (args, rest) => (.gate 1 args, rest)
  | .outOf =>
    match parseThreshold gate tokens with
    | .error e => .error e
    | .ok (k, tokens) =>
      (parseArgs arg gate tokens.length tokens).map fun (args, rest) => (.gate k args, rest)

/-- Reads a gate and the gates inside it, which may be nested so deep. -/
def parseGate (depth : Nat) (name : String) (tokens : List Token) :
    Except PolicyFault (Expression × List Token) :=
  match Keyword.ofWord? name with
  | none => .error (.unrecognized name)
  | some keyword =>
    match expect .openParen name tokens with
    | .error e => .error e
    | .ok tokens =>
      match depth with
      | 0 => .error .tooDeep
      | depth + 1 =>
        let arg : List Token → Except PolicyFault (Expression × List Token)
          | .literal text :: rest => .ok (.principal text, rest)
          | .word name :: rest => parseGate depth name rest
          | token :: _ => .error (.unrecognized token.shown)
          | [] => .error .unexpectedEnd
        parseGateWith arg keyword name tokens

/-- Reads a policy, which takes up all tokens. -/
def parse : List Token → Except PolicyFault Expression
  | .word name :: rest =>
    match parseGate maxGateDepth name rest with
    | .error e => .error e
    | .ok (e, []) => .ok e
    | .ok (_, token :: _) => .error (.trailing token.shown)
  | .literal text :: _ => .error (.notAGate text)
  | token :: _ => .error (.unrecognized token.shown)
  | [] => .error .empty

/-! ## Building -/

def isMspIdChar (c : Char) : Bool := c.isAlphanum || c = '.' || c = '-'

def splitLastPoint (text : List Char) : Option (List Char × List Char) :=
  let role := (text.reverse.takeWhile (· ≠ '.')).reverse
  match text.reverse.dropWhile (· ≠ '.') with
  | [] => none
  | _ :: mspId => some (mspId.reverse, role)

/-- A principal is an MSP id and a role with a point between them. -/
def parsePrincipal (text : String) : Except PolicyFault Principal :=
  match splitLastPoint text.toList with
  | none => .error (.badPrincipal text)
  | some (mspId, role) =>
    if mspId.isEmpty || !mspId.all isMspIdChar then .error (.badPrincipal text)
    else
      match Role.ofName? role with
      | some r => .ok ⟨String.ofList mspId, r⟩
      | none => .error (.badRole (String.ofList role) text)

/-- Identities are numbered in 31 bits. -/
def maxIdentities : Nat := 2147483648

mutual
/-- The rule of an expression whose principals are numbered from `next`, and those principals. -/
def build (next : Nat) : Expression → Except PolicyFault (SignaturePolicy × List Principal)
  | .principal text =>
    match parsePrincipal text with
    | .error e => .error e
    | .ok p =>
      if next < maxIdentities then .ok (.signedBy (Int32.ofNat next), [p])
      else .error .tooManyPrincipals
  | .gate k args =>
    if args.length + 1 < k then .error (.badThreshold k args.length)
    else
      match buildAll next args with
      | .error e => .error e
      | .ok (rules, ps) => .ok (.nOutOf (Int32.ofNat k) rules, ps)

def buildAll (next : Nat) :
    List Expression → Except PolicyFault (List SignaturePolicy × List Principal)
  | [] => .ok ([], [])
  | arg :: args =>
    match build next arg with
    | .error e => .error e
    | .ok (rule, ps) =>
      match buildAll (next + ps.length) args with
      | .error e => .error e
      | .ok (rules, qs) => .ok (rule :: rules, ps ++ qs)
end

end Expression

def compile (text : String) : Except PolicyFault SignaturePolicyEnvelope := do
  let tokens ← Token.scan 0 text.toList
  let e ← Expression.parse tokens
  let (rule, ps) ← Expression.build 0 e
  return { version := 0, rule := some rule, identities := ps.map Principal.toMessage }

end ChannelConfig.Policy
