import ChannelConfig.Path

/-!
# Command line arguments

Every option takes a value, as the next argument or after an equals sign, and may be given once.
Exactly one action must be asked for, and an identity to sign with needs both its key and its name.
Arguments are read from left to right, so that a request for help counts unless something before it
is wrong.
-/

set_option autoImplicit false

namespace ChannelConfig.Program

inductive Flag where
  | config
  | profile
  | channelId
  | outputBlock
  | outputCreateChannelTx
  | inspectBlock
  | signerKey
  | signerMspId
  | signerCert
  deriving DecidableEq, Repr

namespace Flag

def list : List Flag :=
  [config, profile, channelId, outputBlock, outputCreateChannelTx, inspectBlock, signerKey,
    signerMspId, signerCert]

def name : Flag → String
  | config => "config"
  | profile => "profile"
  | channelId => "channel-id"
  | outputBlock => "output-block"
  | outputCreateChannelTx => "output-create-channel-tx"
  | inspectBlock => "inspect-block"
  | signerKey => "signer-key"
  | signerMspId => "signer-msp-id"
  | signerCert => "signer-cert"

def ofName? (name : String) : Option Flag := list.find? (·.name = name)

/-- Whether the value is a path, which must not be empty. -/
def takesPath : Flag → Bool
  | profile | channelId | signerMspId => false
  | _ => true

end Flag

/-! ## Reading arguments -/

/-- The flags with their values, in the order given. -/
abbrev Settings : Type := List (Flag × String)

inductive Reading where
  | settings (s : Settings)
  | help
  /-- Not what the program understands. -/
  | misuse
  deriving DecidableEq, Repr

/-- Adds a value, unless the flag has one or does not take this one. -/
def Settings.add? (s : Settings) (flag : Flag) (value : String) : Option Settings :=
  if (s.lookup flag).isSome || (flag.takesPath && value.isEmpty) then none
  else some (s ++ [(flag, value)])

/-- An argument as the option that it names, with the value attached to it. -/
def longOption? (arg : String) : Option (String × Option String) :=
  match arg.toList with
  | '-' :: '-' :: cs =>
    match cs.takeWhile (· ≠ '='), cs.dropWhile (· ≠ '=') with
    | [], _ => none
    | name, [] => some (String.ofList name, none)
    | name, _ :: value => some (String.ofList name, some (String.ofList value))
  | _ => none

/-- Whether an argument can be the value of an option before it. What begins with a hyphen and goes
on is an option itself, even one without a name. -/
def isValue (arg : String) : Bool :=
  match arg.toList with
  | ['-'] => true
  | '-' :: _ => false
  | _ => true

/-- Reads arguments on top of the settings so far. -/
def read (s : Settings) : List String → Reading
  | [] => .settings s
  | ["--"] => .settings s
  | arg :: rest =>
    match longOption? arg with
    | some ("help", none) => .help
    | some (name, attached) =>
      match Flag.ofName? name, attached, rest with
      | some flag, some value, rest =>
        match s.add? flag value with
        | some s => read s rest
        | none => .misuse
      | some flag, none, value :: rest =>
        match if isValue value then s.add? flag value else none with
        | some s => read s rest
        | none => .misuse
      | _, _, _ => .misuse
    | none => if ['-', 'h'].isPrefixOf arg.toList then .help else .misuse

/-! ## Requests -/

inductive Action where
  | outputBlock (path : Path)
  | outputCreateChannelTx (path : Path)
  | inspectBlock (path : Path)
  deriving DecidableEq, Repr

/-- Where to find an identity that signs. -/
structure Identity where
  key : Path
  mspId : String
  certificate : Option Path
  deriving DecidableEq, Repr

structure Request where
  config : Path
  profile : Option String
  channelId : String
  action : Action
  signer : Option Identity
  deriving DecidableEq, Repr

namespace Settings

variable (s : Settings)

/-- The only action that is asked for. -/
def action? : Option Action :=
  let asked (flag : Flag) (make : Path → Action) : List Action :=
    ((s.lookup flag).map fun text => make ⟨text⟩).toList
  match asked .outputBlock .outputBlock ++ asked .outputCreateChannelTx .outputCreateChannelTx ++
      asked .inspectBlock .inspectBlock with
  | [action] => some action
  | _ => none

/-- The identity, if any; `none` where parts of it are missing. -/
def signer? : Option (Option Identity) :=
  match s.lookup .signerKey, s.lookup .signerMspId, s.lookup .signerCert with
  | none, none, none => some none
  | some key, some mspId, certificate =>
    some (some { key := ⟨key⟩, mspId, certificate := certificate.map Path.mk })
  | _, _, _ => none

/-- Where the profile document is: as the arguments say, else as the surroundings say. -/
def config? (surroundings : Option String) : Option Path :=
  match s.lookup .config, surroundings with
  | some text, _ => some ⟨text⟩
  | none, some text => if text.isEmpty then none else some ⟨text⟩
  | none, none => some ⟨"configtx.toml"⟩

end Settings

inductive Command where
  | request (r : Request)
  | help
  | misuse
  deriving DecidableEq, Repr

def Command.ofArguments (args : List String) (surroundings : Option String) : Command :=
  match read [] args with
  | .help => .help
  | .misuse => .misuse
  | .settings s =>
    match s.config? surroundings, s.action?, s.signer? with
    | some config, some action, some signer =>
      .request {
        config, action, signer
        profile := s.lookup .profile
        channelId := (s.lookup .channelId).getD "mychannel" }
    | _, _, _ => .misuse

/-! ## Help -/

def usage : String :=
  "Build channel genesis blocks and channel creation transactions

Usage: configtxgen [OPTIONS] <ACTION>

Actions, exactly one of:
  --output-block <FILE>              write a genesis block
  --output-create-channel-tx <FILE>  write a channel creation transaction
  --inspect-block <FILE>             print the configuration held in a block as JSON

Options:
  --config <FILE>           TOML document with the organizations and profiles
                            (else CONFIGTXGEN_CONFIG, else configtx.toml)
  --profile <NAME>          profile to generate from
  --channel-id <ID>         channel the artifact is for (else mychannel)
  --signer-key <FILE>       PKCS#8 PEM private key signing the channel creation transaction
  --signer-msp-id <ID>      MSP ID of the signing identity
  --signer-cert <FILE>      PEM certificate of the signing identity
  -h, --help                print help"

end ChannelConfig.Program
