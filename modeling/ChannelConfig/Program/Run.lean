import ChannelConfig.Channel.Creation
import ChannelConfig.Disk.Tree
import ChannelConfig.Ledger.Genesis
import ChannelConfig.Msp.Directory
import ChannelConfig.Profile.Read
import ChannelConfig.Profile.Resolve
import ChannelConfig.Program.Arguments
import ChannelConfig.Toml.Document
import ChannelConfig.Tree.Inspect

/-!
# The program

What a request does: it looks at files and ends with an outcome, which is a file to write or a view
to print, or with an error. Nothing is written before the outcome is there. `run` carries a request
out on a file system.
-/

set_option autoImplicit false

namespace ChannelConfig.Program

/-! ## Outcomes and errors -/

inductive Outcome where
  | block (path : Path) (block : Block)
  | creationTransaction (path : Path) (envelope : Envelope)
  | view (json : Json)

/-- What the program writes, by the name that its errors use. -/
inductive Artifact where
  | genesisBlock
  | creationTransaction
  deriving DecidableEq, Repr

def Artifact.name : Artifact → String
  | genesisBlock => "genesis block"
  | creationTransaction => "channel create tx"

inductive Error where
  | noProfile
  | unreadableConfig (path : Path) (error : FileError)
  | badConfig (path : Path)
  | noOrderer
  | build (error : ConfigError)
  | unreadableBlock (path : Path) (error : FileError)
  | badBlock (error : Wire.DecodeError)
  | unreadableKey (path : Path) (error : FileError)
  | unreadableCertificate (path : Path) (error : FileError)
  | unwritable (artifact : Artifact) (path : Path) (error : FileError)
  | config (error : ConfigError)
  deriving DecidableEq, Repr

/-- The messages of an error and of what caused it, outermost first. -/
def Error.chain : Error → List String
  | noProfile => ["a --profile is required for this action"]
  | unreadableConfig path error => [s!"can't read config file {path.text}", error.message]
  | badConfig path => [s!"bad config file {path.text}"]
  | noOrderer => ["refusing to generate block which is missing orderer section"]
  | build error => "error building channel group" :: error.chain
  | unreadableBlock path error => [s!"could not read block {path.text}", error.message]
  | badBlock error => "error unmarshaling to block" :: (ConfigError.decode error).chain
  | unreadableKey path error => [s!"can't read signing key {path.text}", error.message]
  | unreadableCertificate path error =>
    [s!"can't read signing certificate {path.text}", error.message]
  | unwritable artifact path error =>
    [s!"error writing {artifact.name} to {path.text}", error.message]
  | config error => error.chain

def Error.report (e : Error) : String :=
  match e.chain with
  | [] => "Error"
  | [message] => s!"Error: {message}"
  | [message, cause] => s!"Error: {message}\n\nCaused by:\n    {cause}"
  | message :: causes =>
    let numbered := causes.zipIdx.map fun (cause, i) => s!"    {i}: {cause}"
    s!"Error: {message}\n\nCaused by:\n" ++ "\n".intercalate numbered

/-! ## Reading -/

/-- The document at a path, its own paths seen from the directory that it is in. -/
def loadDocument (v : FileView) (path : Path) : Except Error ProfileDocument :=
  match v.text path with
  | .error e => .error (.unreadableConfig path e)
  | .ok text =>
    match (Toml.parse text).bind (ProfileDocument.ofDatum .ignored) with
    | none => .error (.badConfig path)
    | some document =>
      match path.parent? with
      | some directory => .ok (document.rebase directory)
      | none => .ok document

def loadProfile (v : FileView) (r : Request) : Except Error Profile :=
  match r.profile with
  | none => .error .noProfile
  | some name => do
    let document ← loadDocument v r.config
    (document.profile name).mapError .config

/-- The signer of an identity, without a certificate if none is given. -/
def loadSigner (v : FileView) (identity : Identity) : Except Error Signer := do
  let pem ← (v.text identity.key).mapError (.unreadableKey identity.key)
  let certificate ←
    match identity.certificate with
    | none => .ok []
    | some path => (v.contents path).mapError (.unreadableCertificate path)
  let signer ← (KeySigner.ofPem pem identity.mspId certificate).mapError .config
  return signer.signer

/-! ## Requests -/

/-- What a request needs besides files: the stamp of a transaction, and a nonce to sign its content
with. -/
structure Supplies where
  stamp : Stamp
  updateNonce : Nonce
  deriving DecidableEq, Repr

/-- The block that sets up the channel of a profile, which must have an orderer. -/
def makeBlock (v : FileView) (r : Request) (supplies : Supplies) : Except Error Block := do
  let profile ← loadProfile v r
  if profile.orderer.isNone then .error .noOrderer
  else
    let g ← (profile.channelGroup v.loader).mapError .build
    return genesisBlock g r.channelId supplies.stamp

/-- The transaction that creates the channel of a profile. -/
def makeTransaction (v : FileView) (r : Request) (supplies : Supplies) : Except Error Envelope := do
  let profile ← loadProfile v r
  let signer ← r.signer.mapM (loadSigner v)
  (profile.creationTransaction v.loader r.channelId signer supplies.updateNonce
    supplies.stamp).mapError .config

/-- The view of the configuration in a block. -/
def inspect (v : FileView) (path : Path) : Except Error Json := do
  let bs ← (v.contents path).mapError (.unreadableBlock path)
  let block : Block ← (Wire.decode bs).mapError .badBlock
  let config ← block.config.mapError .config
  return config.toJson

/-- What comes of a request, seen from the files as they are. -/
def outcome (v : FileView) (r : Request) (supplies : Supplies) : Except Error Outcome :=
  match r.action with
  | .outputBlock path => (makeBlock v r supplies).map (.block path)
  | .outputCreateChannelTx path => (makeTransaction v r supplies).map (.creationTransaction path)
  | .inspectBlock path => (inspect v path).map .view

namespace Outcome

/-- The file that an outcome writes: what it is, where, and its contents. -/
def file : Outcome → Option (Artifact × Path × Bytes)
  | .block path b => some (.genesisBlock, path, Wire.encode b)
  | .creationTransaction path e => some (.creationTransaction, path, Wire.encode e)
  | .view _ => none

end Outcome

/-- Carries a request out: the files afterwards, and what came of it. -/
def run {F : Type} [FileSystem F] (files : F) (r : Request) (supplies : Supplies) :
    F × Except Error Outcome :=
  match outcome (FileSystem.view files) r supplies with
  | .error e => (files, .error e)
  | .ok result =>
    match result.file with
    | none => (files, .ok result)
    | some (artifact, path, contents) =>
      match FileSystem.write files path contents with
      | .ok files => (files, .ok result)
      | .error e => (files, .error (.unwritable artifact path e))

end ChannelConfig.Program
