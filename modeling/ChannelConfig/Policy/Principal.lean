import ChannelConfig.Error
import ChannelConfig.Policy.Message

/-!
# Principals

A principal is a class of identities: those of one organization that have one role. The wire knows
other classes too, which no policy expression can name.
-/

set_option autoImplicit false

namespace ChannelConfig

inductive Role where
  | member
  | admin
  | client
  | peer
  | orderer
  deriving DecidableEq, Repr, Inhabited

namespace Role

def all : List Role := [member, admin, client, peer, orderer]

def name : Role → String
  | member => "member"
  | admin => "admin"
  | client => "client"
  | peer => "peer"
  | orderer => "orderer"

def number : Role → Int32
  | member => 0
  | admin => 1
  | client => 2
  | peer => 3
  | orderer => 4

def ofNumber? (n : Int32) : Option Role := all.find? (·.number = n)

/-- Roles are known by name in any ASCII case. -/
def ofName? (name : List Char) : Option Role :=
  all.find? (·.name.toList = name.map Char.toLower)

@[simp] theorem ofNumber?_number (r : Role) : ofNumber? r.number = some r := by
  cases r <;> decide

end Role

structure Principal where
  mspId : String
  role : Role
  deriving DecidableEq, Repr, Inhabited

namespace Principal

/-- The class of identities given by a role. -/
def roleClassification : Int32 := 0

def toMessage (p : Principal) : MspPrincipal where
  classification := roleClassification
  principal := Wire.encode { mspId := p.mspId, role := p.role.number : MspRole }

def ofMessage (m : MspPrincipal) : Result Principal :=
  if m.classification ≠ roleClassification then
    .invalid (.unrenderableClassification m.classification)
  else do
    let role : MspRole ← .ofDecode (Wire.decode m.principal)
    match Role.ofNumber? role.role with
    | some r => .ok ⟨role.mspId, r⟩
    | none => .invalid (.unknownRole role.role)

def text (p : Principal) : String := p.mspId ++ "." ++ p.role.name

end Principal

end ChannelConfig
