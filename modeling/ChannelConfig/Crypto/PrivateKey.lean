import ChannelConfig.Crypto.Der
import ChannelConfig.Crypto.P256
import ChannelConfig.Pem.Sections

/-!
# Private keys

A private key for P-256 as it stands in a PEM file: one section, in lines of 64 digits, with a key in
the form that names its algorithm (PKCS#8).
-/

set_option autoImplicit false

namespace ChannelConfig.PrivateKey

/-! ## The section -/

def label : Bytes := Bytes.ofText "PRIVATE KEY"

def afterLineEnd : Bytes → Option Bytes
  | 13 :: 10 :: rest => some rest
  | 10 :: rest => some rest
  | 13 :: rest => some rest
  | _ => none

/-- Skips lines of other text up to the first section. There must be no zero byte among them. -/
def afterPreamble : Bytes → Option Bytes
  | [] => none
  | b :: bs =>
    if b = 0 then none
    else if b = 10 ∧ Pem.beginMark.isPrefixOf bs then some bs
    else afterPreamble bs

/-- What stands before the line end at the end of a text. -/
def beforeLineEnd (text : Bytes) : Option Bytes :=
  match text.reverse with
  | 10 :: 13 :: rest => some rest.reverse
  | 10 :: rest => some rest.reverse
  | 13 :: rest => some rest.reverse
  | _ => none

def beforeSuffix (suffix text : Bytes) : Option Bytes :=
  (Pem.afterPrefix suffix.reverse text.reverse).map List.reverse

/-- The text before its last line, which may have a line end. -/
def beforeLastLine (line text : Bytes) : Option Bytes := do
  beforeLineEnd (← beforeSuffix line ((beforeLineEnd text).getD text))

/-- Joins lines of exactly 64 bytes and a last one of at most 64, its line end, if it has one,
included. A line with more after it does not end with padding. -/
def joinLines : (fuel : Nat) → Bytes → Option Bytes
  | 0, text => if text.isEmpty then some [] else none
  | fuel + 1, text =>
    match text.drop 64 with
    | [] => some ((beforeLineEnd text).getD text)
    | rest => do
      let rest ← afterLineEnd rest
      let line := text.take 64
      if line.getLast? = some Base64.padding ∧ rest ≠ [] then none
      else (joinLines fuel rest).map (line ++ ·)

/-- The bytes of the only section of a text. -/
def onlySection (text : Bytes) : Option Bytes := do
  let text ← if Pem.beginMark.isPrefixOf text then some text else afterPreamble text
  let text ← Pem.afterPrefix (Pem.beginMark ++ label ++ Pem.dashes) text
  let text ← afterLineEnd text
  let body ← beforeLastLine (Pem.endMark ++ label ++ Pem.dashes) text
  Base64.decode (← joinLines body.length body)

/-! ## The key -/

/-- The name of the curve. -/
def curveName : Bytes := Der.element Der.objectTag [0x2a, 0x86, 0x48, 0xce, 0x3d, 0x03, 0x01, 0x07]

/-- The name of keys for elliptic curves, and that of the curve. -/
def algorithm : Bytes :=
  Der.element Der.objectTag [0x2a, 0x86, 0x48, 0xce, 0x3d, 0x02, 0x01] ++ curveName

/-- A secret number of at least 24 bytes, between 0 and the order. -/
def secret? (bs : Bytes) : Option Nat :=
  let n := Bytes.toNat bs
  if 24 ≤ bs.length ∧ bs.length ≤ P256.width ∧ n ≠ 0 ∧ n < P256.order then some n else none

/-- What follows the name of a curve, if there is one, and what may stand beside it. Any curve may
be named. -/
def afterCurve (bs : Bytes) : Option Bytes :=
  if bs.head? = some (Der.contextTag 0) then do
    let (content, rest) ← Der.read (Der.contextTag 0) bs
    if Der.isObject (← Der.readOnly Der.objectTag content) then
      Der.skipNumberZero rest.length rest
    else none
  else some bs

/-- A public key, or nothing at all. -/
def sharedKey? (bs : Bytes) : Option (Option Bytes) :=
  if bs.isEmpty then some none
  else do
    let content ← Der.readOnly (Der.contextTag 1) bs
    return some (← Der.bitString (← Der.readOnly Der.bitStringTag content))

/-- A key without the name of its algorithm. A public key in it must be the one that belongs to
it. -/
def ofBareKey (der : Bytes) : Option Nat := do
  let content ← Der.readOnly Der.sequenceTag der
  let (version, rest) ← Der.read Der.integerTag content
  let (bytes, rest) ← Der.read Der.octetStringTag rest
  let shared ← sharedKey? (← afterCurve rest)
  let secret ← secret? bytes
  let point := P256.publicKey secret
  let sharedMatches := shared.all fun key => key = point.toBytes || key = point.toShortBytes
  if version = [1] ∧ sharedMatches then some secret else none

/-- Whether the bytes are numbered elements that each hold one other element. -/
def areExtensions : (fuel : Nat) → Bytes → Bool
  | 0, bs => bs.isEmpty
  | _ + 1, [] => true
  | fuel + 1, bs =>
    match Der.readAny bs with
    | none => false
    | some (tag, content, rest) =>
      Der.contextTag 0 ≤ tag && tag < 0xc0 && ((Der.readAny content).map (·.2.2)) = some [] &&
        areExtensions fuel rest

/-- Whether a public key comes next, and what follows it. Its tag says that it is the value itself. -/
def afterSharedKey (bs : Bytes) : Option (Bool × Bytes) :=
  if bs.head? = some (Der.plainContextTag 1) then do
    let (content, rest) ← Der.read (Der.plainContextTag 1) bs
    let _ ← Der.bitString content
    return (true, rest)
  else if bs.head? = some (Der.contextTag 1) then none
  else some (false, bs)

/-- A key with the name of its algorithm. A public key stands beside it in version 1, and only then;
it need not belong to the key. -/
def ofNamedKey (der : Bytes) : Option Nat := do
  let content ← Der.readOnly Der.sequenceTag der
  let (version, rest) ← Der.read Der.integerTag content
  let (name, rest) ← Der.read Der.sequenceTag rest
  let (key, rest) ← Der.read Der.octetStringTag rest
  let (hasShared, rest) ← afterSharedKey (← Der.skipNumberZero rest.length rest)
  if version = (if hasShared then [1] else [0]) ∧ name = algorithm ∧
      areExtensions rest.length rest then
    ofBareKey key
  else none

def ofPem? (pem : String) : Option Nat := (onlySection (Bytes.ofText pem)).bind ofNamedKey

end ChannelConfig.PrivateKey
