import ChannelConfig.Wire.Varint

/-!
# Errors

Each way to fail is a constructor, and its wording stands in one `message` function. A
`ConfigError` also remembers where it happened: `ConfigError.within` puts a place in front of those
already known.
-/

set_option autoImplicit false

namespace ChannelConfig

/-! ## Files and credential material -/

/-- Why a file or a directory cannot be used. -/
inductive FileError where
  | notFound
  | notADirectory
  | isADirectory
  | nameTooLong
  | invalidName
  | notText
  | other (text : String)
  deriving DecidableEq, Repr

def FileError.message : FileError → String
  | notFound => "No such file or directory (os error 2)"
  | notADirectory => "Not a directory (os error 20)"
  | isADirectory => "Is a directory (os error 21)"
  | nameTooLong => "File name too long (os error 36)"
  | invalidName => "file name contained an unexpected NUL byte"
  | notText => "stream did not contain valid UTF-8"
  | other text => text

/-- Why a file does not count as PEM. -/
inductive PemFault where
  | malformed
  | noCertificate
  | noRevocationList
  deriving DecidableEq, Repr

/-- Why credential material cannot be loaded. -/
inductive LoadFault where
  | noMaterial (name : String)
  | unreadable (path : String) (error : FileError)
  | noRootCerts (directory : String)
  | notPem (path : String) (fault : PemFault)
  | unsupportedType (type : String)
  deriving DecidableEq, Repr

def LoadFault.message : LoadFault → String
  | noMaterial name => s!"no credential material found for {name}"
  | unreadable path error => s!"could not read {path}: {error.message}"
  | noRootCerts directory => s!"could not load a valid ca certificate from directory {directory}"
  | notPem path .malformed => s!"{path} is not a PEM file"
  | notPem path .noCertificate => s!"{path} is not a PEM file: no certificate found"
  | notPem path .noRevocationList =>
    s!"{path} is not a PEM file: no certificate revocation list found"
  | unsupportedType type => s!"unsupported MSP type '{type}'"

/-! ## Durations -/

/-- Why a text is not a duration. -/
inductive DurationFault where
  | empty
  | expectedNumber (rest : String)
  | missingUnit (number : String)
  | unknownUnit (unit : String)
  | badNumber (number : String)
  deriving DecidableEq, Repr

def DurationFault.message : DurationFault → String
  | empty => "empty duration"
  | expectedNumber rest => s!"expected a number at '{rest}'"
  | missingUnit number => s!"missing unit after '{number}'"
  | unknownUnit unit => s!"unknown unit '{unit}'"
  | badNumber number => s!"invalid number '{number}'"

/-! ## Policy expressions -/

/-- How deep gates may nest, written and read. -/
def maxGateDepth : Nat := 64

/-- Why a text is no policy. Tokens are given as they are shown. -/
inductive PolicyFault where
  | unterminatedString (offset : Nat)
  | numberOutOfRange (digits : String)
  | unrecognized (token : String)
  | notAGate (principal : String)
  | trailing (token : String)
  | empty
  | unexpectedEnd
  | expectedNumber (gate token : String)
  | expected (wanted gate : String) (got : Option String)
  | unexpectedArgument (token gate : String)
  | unclosed (gate : String)
  | tooDeep
  | badThreshold (t n : Nat)
  | badPrincipal (principal : String)
  | badRole (role principal : String)
  | tooManyPrincipals
  | metaTokenCount (count : Nat)
  | unknownMetaRule (rule : String)
  deriving DecidableEq, Repr

def PolicyFault.message : PolicyFault → String
  | unterminatedString offset =>
    s!"unterminated string starting at offset {offset} in policy string"
  | numberOutOfRange digits => s!"number '{digits}' out of range in policy string"
  | unrecognized token => s!"unrecognized token '{token}' in policy string"
  | notAGate principal => s!"policy must be a gate expression, got principal '{principal}'"
  | trailing token => s!"unexpected token '{token}' after end of policy"
  | empty => "empty policy string"
  | unexpectedEnd => "unexpected end of policy string"
  | expectedNumber gate token => s!"{gate} expects a number as its first argument, got '{token}'"
  | expected wanted gate (some got) => s!"expected '{wanted}' in {gate}, got '{got}'"
  | expected wanted gate none => s!"expected '{wanted}' in {gate}, got end of policy string"
  | unexpectedArgument token gate => s!"unexpected token '{token}' in arguments of {gate}"
  | unclosed gate => s!"missing ')' closing {gate}"
  | tooDeep => s!"policy nesting exceeds {maxGateDepth} levels"
  | badThreshold t n => s!"invalid t-out-of-n predicate, t {t}, n {n}"
  | badPrincipal principal => s!"error parsing principal '{principal}'"
  | badRole role principal => s!"error parsing role '{role}' in principal '{principal}'"
  | tooManyPrincipals => "too many principals in policy"
  | metaTokenCount count => s!"expected two space separated tokens, but got {count}"
  | unknownMetaRule rule => s!"unknown rule type '{rule}', expected ALL, ANY, or MAJORITY"

/-! ## Trees, profiles and blocks -/

/-- What a tree, a profile, a policy or a block lacks or must not have. -/
inductive Invalid where
  | noPolicies
  | missingPolicy (name : String)
  | unknownPolicyType (type : String)
  | unsupportedPolicyType (type : Int32)
  | unknownMetaRule (rule : Int32)
  | unrenderableClassification (classification : Int32)
  | unknownRole (role : Int32)
  | noRule
  | identityOutOfRange (identity : Int32) (count : Nat)
  | renderTooDeep
  | untypedRule
  | unknownValue (key : String)
  | noCurrentGroup
  | noUpdatedGroup
  | profileNotFound (profile : String)
  | unknownOrganization (profile organization : String)
  | unknownOrdererType (type : String)
  | noRaftSection
  | badDuration (setting value : String) (fault : DurationFault)
  | zeroDuration (setting value : String)
  | unsupportedMspType (type organization : String)
  | noRootCerts (mspId : String)
  | noTransactions
  | noPayloadHeader
  | notAConfigBlock (type : Int32)
  | noConfig
  | noApplicationInTemplate
  | noApplication
  | noConsortium
  deriving DecidableEq, Repr

def Invalid.message : Invalid → String
  | noPolicies => "no policies defined"
  | missingPolicy name => s!"no {name} policy defined"
  | unknownPolicyType type => s!"unknown policy type: {type}"
  | unsupportedPolicyType type => s!"unsupported policy type {type}"
  | unknownMetaRule rule => s!"unknown implicit meta rule {rule}"
  | unrenderableClassification classification =>
    s!"principal classification {classification} cannot be rendered as a policy expression"
  | unknownRole role => s!"unknown MSP role {role}"
  | noRule => "signature policy envelope has no rule"
  | identityOutOfRange identity count =>
    s!"identity index {identity} out of range ({count} identities)"
  | renderTooDeep => s!"policy nesting exceeds {maxGateDepth} levels"
  | untypedRule => "signature policy has no type"
  | unknownValue key => s!"unknown configuration value '{key}'"
  | noCurrentGroup => "no channel group included for original config"
  | noUpdatedGroup => "no channel group included for updated config"
  | profileNotFound profile => s!"profile '{profile}' not found"
  | unknownOrganization profile organization =>
    s!"profile '{profile}' references unknown organization '{organization}'"
  | unknownOrdererType type => s!"unknown orderer type: {type}"
  | noRaftSection => "cannot marshal metadata for orderer type etcdraft: no etcd_raft section"
  | badDuration setting value fault => s!"invalid {setting} '{value}': {fault.message}"
  | zeroDuration setting value => s!"invalid {setting} '{value}': must be positive"
  | unsupportedMspType type organization =>
    s!"unsupported MSP type '{type}' for org {organization}"
  | noRootCerts mspId => s!"MSP {mspId} has no root CA certificates"
  | noTransactions => "block contains no transactions"
  | noPayloadHeader => "envelope payload has no header"
  | notAConfigBlock type => s!"block is not a config block: header type {type}"
  | noConfig => "config envelope carries no config"
  | noApplicationInTemplate => "channel template configs must contain an application section"
  | noApplication => "cannot define a new channel with no Application section"
  | noConsortium => "cannot define a new channel with no Consortium value"

/-! ## Errors of the library -/

/-- Where an error happened. -/
inductive Place where
  | channelPolicies
  | ordererPolicies
  | applicationPolicies
  | organizationPolicies (organization : String)
  | ordererOrganization (organization : String)
  | applicationOrganization (organization : String)
  | consortium (name : String)
  | consortiumOrganization (organization : String)
  | implicitMetaRule (rule : String)
  | signatureRule (rule : String)
  | template
  | desiredGroup
  | comparison
  deriving DecidableEq, Repr

def Place.message : Place → String
  | channelPolicies => "error adding policies to channel group"
  | ordererPolicies => "error adding policies to orderer group"
  | applicationPolicies => "error adding policies to application group"
  | organizationPolicies organization => s!"error adding policies to org group {organization}"
  | ordererOrganization organization => s!"failed to create orderer org {organization}"
  | applicationOrganization organization => s!"failed to create application org {organization}"
  | consortium name => s!"failed to create consortium {name}"
  | consortiumOrganization organization => s!"failed to create consortium org {organization}"
  | implicitMetaRule rule => s!"invalid implicit meta policy rule '{rule}'"
  | signatureRule rule => s!"invalid signature policy rule '{rule}'"
  | template => "error parsing configuration"
  | desiredGroup => "could not turn profile into channel group"
  | comparison => "could not compute update"

/-- What a loader or a signer was asked for. -/
inductive Task where
  | loadMsp (organization : String)
  | readClientCert (host : String) (port : UInt32)
  | readServerCert (host : String) (port : UInt32)
  | serializeIdentity
  | signEnvelope
  | signUpdate
  | readSigningKey
  deriving DecidableEq, Repr

def Task.message : Task → String
  | loadMsp organization => s!"error loading MSP configuration for org {organization}"
  | readClientCert host port => s!"cannot load client cert for consenter {host}:{port}"
  | readServerCert host port => s!"cannot load server cert for consenter {host}:{port}"
  | serializeIdentity => "error serializing signer identity"
  | signEnvelope => "error signing envelope"
  | signUpdate => "error signing config update"
  | readSigningKey => "invalid PKCS#8 signing key"

/-- What a loader or a signer failed with. -/
inductive Failure where
  | load (fault : LoadFault)
  | signer (text : String)
  | key
  deriving DecidableEq, Repr

/-- The messages of a failure and of what caused it, outermost first. -/
def Failure.chain : Failure → List String
  | load (.unreadable path error) => [(LoadFault.unreadable path error).message, error.message]
  | load fault => [fault.message]
  | signer text => [text]
  | key => []

inductive ConfigError where
  | validation (trail : List Place) (cause : Invalid)
  | parse (trail : List Place) (cause : PolicyFault)
  | noDifferences
  | collaborator (trail : List Place) (task : Task) (failure : Failure)
  | decode (cause : Wire.DecodeError)
  deriving DecidableEq, Repr

namespace ConfigError

/-- The error, known to have happened at this place. -/
def within (place : Place) : ConfigError → ConfigError
  | validation trail cause => validation (place :: trail) cause
  | parse trail cause => parse (place :: trail) cause
  | collaborator trail task failure => collaborator (place :: trail) task failure
  | noDifferences => noDifferences
  | decode cause => decode cause

/-- A text after the places it happened at. -/
def along (trail : List Place) (text : String) : String :=
  trail.foldr (fun place rest => place.message ++ ": " ++ rest) text

/-- The messages of an error and of what caused it, outermost first. -/
def chain : ConfigError → List String
  | validation trail cause => ["Validation error: " ++ along trail cause.message]
  | parse trail cause => ["Parse error: " ++ along trail cause.message]
  | noDifferences => ["no differences detected between original and updated config"]
  | collaborator trail task failure =>
    match failure.chain with
    | [] => [along trail task.message]
    | source :: causes => (along trail task.message ++ ": " ++ source) :: source :: causes
  | decode _ => ["Decode error"]

def message (e : ConfigError) : String := e.chain.headD ""

end ConfigError

instance : Coe Invalid ConfigError := ⟨.validation []⟩
instance : Coe PolicyFault ConfigError := ⟨.parse []⟩
instance : Coe Wire.DecodeError ConfigError := ⟨.decode⟩

abbrev Result (α : Type) : Type := Except ConfigError α

namespace Result

variable {α : Type}

def invalid (cause : Invalid) : Result α := .error (.validation [] cause)

/-- The result, its error known to have happened at this place. -/
def within (place : Place) : Result α → Result α := Except.mapError (·.within place)

def ofDecode : Except Wire.DecodeError α → Result α := Except.mapError .decode

def ofPolicy : Except PolicyFault α → Result α := Except.mapError (.parse [])

end Result

end ChannelConfig
