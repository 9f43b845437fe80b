import ChannelConfig.Disk.View
import ChannelConfig.Msp.Material
import ChannelConfig.Pem.Sections

/-!
# Credential directories

The material of an organization in a directory: a directory below it for each kind, where every file
must hold at least one PEM section of the kind. Only the root certificates must be there.
-/

set_option autoImplicit false

namespace ChannelConfig

/-! ## Kinds of sections -/

inductive PemKind where
  | certificate
  | revocationList
  deriving DecidableEq, Repr

namespace PemKind

def label : PemKind → Bytes
  | certificate => Pem.certificateLabel
  | revocationList => Pem.revocationListLabel

/-- What is wrong with a file that has no section of the kind. -/
def missing : PemKind → PemFault
  | certificate => .noCertificate
  | revocationList => .noRevocationList

/-- Checks that a file has sections of the kind, and can be read as a whole. -/
def check (kind : PemKind) (file : Bytes) : Except PemFault Unit :=
  match Pem.count kind.label file with
  | .error fault => .error fault
  | .ok 0 => .error kind.missing
  | .ok _ => .ok ()

end PemKind

/-! ## Directories -/

namespace CredentialDirectory

def rootCerts : Path := ⟨"cacerts"⟩
def intermediateCerts : Path := ⟨"intermediatecerts"⟩
def adminCerts : Path := ⟨"admincerts"⟩
def revocationList : Path := ⟨"crls"⟩
def tlsRootCerts : Path := ⟨"tlscacerts"⟩
def tlsIntermediateCerts : Path := ⟨"tlsintermediatecerts"⟩

/-- The directories that material is looked for in. -/
def list : List Path :=
  [rootCerts, intermediateCerts, adminCerts, revocationList, tlsRootCerts, tlsIntermediateCerts]

end CredentialDirectory

namespace FileView

variable (v : FileView)

/-- A file with sections of a kind, as it is. -/
def pemFile (kind : PemKind) (path : Path) : Except LoadFault Bytes :=
  match v.contents path with
  | .error e => .error (.unreadable path.text e)
  | .ok bs =>
    match kind.check bs with
    | .error fault => .error (.notPem path.text fault)
    | .ok () => .ok bs

/-- The regular files of a directory in the order of their names; none where there is no directory. -/
def regularFiles (directory : Path) : Except LoadFault (List Path) :=
  match v.names directory with
  | .error .notFound => .ok []
  | .error e => .error (.unreadable directory.text e)
  | .ok names =>
    .ok (((names.mergeSort fun a b => !decide (b < a)).map fun name => directory.join ⟨name⟩).filter
      v.isFile)

/-- All files of a directory, each with sections of the kind. -/
def pemDirectory (kind : PemKind) (directory : Path) : Except LoadFault (List Bytes) := do
  let paths ← v.regularFiles directory
  paths.mapM (v.pemFile kind)

def material (directory : Path) (mspType : String) : Except LoadFault Material := do
  if mspType ≠ bccspType then .error (.unsupportedType mspType)
  else
    let certificates (below : Path) : Except LoadFault (List Bytes) :=
      v.pemDirectory .certificate (directory.join below)
    let rootCerts ← certificates CredentialDirectory.rootCerts
    if rootCerts.isEmpty then
      .error (.noRootCerts (directory.join CredentialDirectory.rootCerts).text)
    else
      let intermediateCerts ← certificates CredentialDirectory.intermediateCerts
      let adminCerts ← certificates CredentialDirectory.adminCerts
      let revocationList ←
        v.pemDirectory .revocationList (directory.join CredentialDirectory.revocationList)
      let tlsRootCerts ← certificates CredentialDirectory.tlsRootCerts
      let tlsIntermediateCerts ← certificates CredentialDirectory.tlsIntermediateCerts
      return {
        rootCerts, intermediateCerts, adminCerts, revocationList, tlsRootCerts,
        tlsIntermediateCerts }

def loader : MaterialLoader where
  loadMsp directory _ mspType := v.material directory mspType
  readPath path := (v.contents path).mapError (.unreadable path.text)

end FileView

end ChannelConfig
