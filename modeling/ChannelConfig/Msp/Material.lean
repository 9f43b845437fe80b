import ChannelConfig.Error
import ChannelConfig.Path
import ChannelConfig.Msp.Message

/-!
# Credential material

What an organization shows to be verified: certificates, revocation lists and, optionally, the
organizational units that tell its kinds of nodes apart. A `MaterialLoader` finds it; `verifyingMsp`
makes it the MSP configuration that goes into the tree.
-/

set_option autoImplicit false

namespace ChannelConfig

structure OuIdentifier where
  certificate : Bytes := []
  unit : String := ""
  deriving DecidableEq, Repr

structure NodeOus where
  enable : Bool := false
  client : Option OuIdentifier := none
  peer : Option OuIdentifier := none
  admin : Option OuIdentifier := none
  orderer : Option OuIdentifier := none
  deriving DecidableEq, Repr

/-- The verifying material of one organization. -/
structure Material where
  rootCerts : List Bytes := []
  intermediateCerts : List Bytes := []
  adminCerts : List Bytes := []
  revocationList : List Bytes := []
  tlsRootCerts : List Bytes := []
  tlsIntermediateCerts : List Bytes := []
  nodeOus : Option NodeOus := none
  deriving DecidableEq, Repr

/-- Finds material by directory, MSP id and MSP type, and single files by path. -/
structure MaterialLoader where
  loadMsp : (directory : Path) → (mspId : String) → (mspType : String) → Except LoadFault Material
  readPath : Path → Except LoadFault Bytes

/-- The MSP type of X.509 certificates, by name and by number. -/
def bccspType : String := "bccsp"

def fabricMspType : Int32 := 0

def OuIdentifier.toMessage (ou : OuIdentifier) : FabricOuIdentifier where
  certificate := ou.certificate
  organizationalUnitIdentifier := ou.unit

def NodeOus.toMessage (ous : NodeOus) : FabricNodeOus where
  enable := ous.enable
  clientOuIdentifier := ous.client.map OuIdentifier.toMessage
  peerOuIdentifier := ous.peer.map OuIdentifier.toMessage
  adminOuIdentifier := ous.admin.map OuIdentifier.toMessage
  ordererOuIdentifier := ous.orderer.map OuIdentifier.toMessage

/-- The configuration that verifies members of an organization. It signs nothing. -/
def verifyingMsp (mspId : String) (m : Material) : Result MspConfig :=
  if m.rootCerts.isEmpty then .invalid (.noRootCerts mspId)
  else
    .ok {
      type := fabricMspType
      config := Wire.encode {
        name := mspId
        rootCerts := m.rootCerts
        intermediateCerts := m.intermediateCerts
        admins := m.adminCerts
        revocationList := m.revocationList
        cryptoConfig := some {
          signatureHashFamily := "SHA2", identityIdentifierHashFunction := "SHA256" }
        tlsRootCerts := m.tlsRootCerts
        tlsIntermediateCerts := m.tlsIntermediateCerts
        fabricNodeOus := m.nodeOus.map NodeOus.toMessage : FabricMspConfig } }

/-! ## Material held in memory -/

/-- Material by MSP id and files by path. -/
structure MaterialStore where
  organizations : NameMap Material := .nil
  files : List (Path × Bytes) := []

namespace MaterialStore

/-- Adds a file, in place of one that is there under the same path. -/
def addFile (s : MaterialStore) (path : Path) (contents : Bytes) : MaterialStore :=
  { s with files := (path, contents) :: s.files }

def loader (s : MaterialStore) : MaterialLoader where
  loadMsp _ mspId _ :=
    match s.organizations.find? mspId with
    | some m => .ok m
    | none => .error (.noMaterial mspId)
  readPath path :=
    match s.files.find? fun f => f.1.same path with
    | some (_, contents) => .ok contents
    | none => .error (.noMaterial path.text)

end MaterialStore

end ChannelConfig
