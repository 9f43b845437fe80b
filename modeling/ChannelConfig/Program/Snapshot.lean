import ChannelConfig.Program.Run

/-!
# Snapshots

The paths that a request has to look at, and a view made of what was seen there. The files of a
request are known from the start; a profile then tells where material and certificates are. `perform`
looks first and writes at the end; how to look and how to write is given to it.
-/

set_option autoImplicit false

namespace ChannelConfig

/-- The directories that the organizations' material is looked for in. -/
def Profile.credentialDirectories (p : Profile) : List Path :=
  p.allOrganizations.flatMap fun o => CredentialDirectory.list.map o.mspDir.join

namespace Program

/-! ## What was seen -/

/-- What was seen at a path. -/
structure Sighting where
  path : Path
  contents : Except FileError Bytes
  names : Except FileError (List String)
  isFile : Bool

/-- What is in a directory that could be listed. -/
def Sighting.inside (s : Sighting) : List Path :=
  match s.names with
  | .ok names => names.map fun name => s.path.join ⟨name⟩
  | .error _ => []

abbrev Snapshot : Type := List Sighting

/-- The view of what was seen; there is nothing elsewhere. -/
def Snapshot.view (s : Snapshot) : FileView :=
  let seen (path : Path) : Option Sighting := s.find? (·.path = path)
  { contents := fun path => ((seen path).map (·.contents)).getD (.error .notFound)
    names := fun path => ((seen path).map (·.names)).getD (.error .notFound)
    isFile := fun path => ((seen path).map (·.isFile)).getD false }

def Request.files (r : Request) : List Path :=
  match r.action with
  | .inspectBlock path => [path]
  | _ =>
    r.config ::
      match r.signer with
      | none => []
      | some identity => identity.key :: identity.certificate.toList

/-! ## Looking and writing -/

section

variable {m : Type → Type} [Monad m] (look : Path → m Sighting)

/-- Looks at directories and at everything in them. -/
def lookInside (directories : List Path) : m Snapshot := do
  let outer ← directories.mapM look
  let inner ← outer.mapM fun s => s.inside.mapM look
  return outer ++ inner.flatten

/-- Everything that a request needs to look at. -/
def survey (r : Request) : m Snapshot := do
  let named ← r.files.mapM look
  match loadProfile (Snapshot.view named) r with
  | .error _ => return named
  | .ok profile => do
    let directories ← lookInside look profile.credentialDirectories
    let certificates ← profile.certificateFiles.mapM look
    return named ++ directories ++ certificates

/-- Carries a request out: looks, and writes what comes of it if that is a file. -/
def perform (write : Path → Bytes → m (Except FileError Unit)) (r : Request) (supplies : Supplies) :
    m (Except Error Outcome) := do
  let seen ← survey look r
  match outcome seen.view r supplies with
  | .error e => return .error e
  | .ok result =>
    match result.file with
    | none => return .ok result
    | some (artifact, path, contents) =>
      match ← write path contents with
      | .ok () => return .ok result
      | .error e => return .error (.unwritable artifact path e)

end

end Program

end ChannelConfig
