import ChannelConfig.Ledger.Signer
import ChannelConfig.Tree.Config

/-!
# Transactions

A transaction is data under two headers, signed as a whole. `signedEnvelope` makes one and
`Envelope.open` looks into it; a configuration update is also signed by itself, by as many signers
as its policy asks for.
-/

set_option autoImplicit false

namespace ChannelConfig

open Wire

inductive HeaderType where
  | message
  | config
  | configUpdate
  | endorserTransaction
  | ordererTransaction
  deriving DecidableEq, Repr

namespace HeaderType

def number : HeaderType → Int32
  | message => 0
  | config => 1
  | configUpdate => 2
  | endorserTransaction => 3
  | ordererTransaction => 4

def list : List HeaderType :=
  [message, config, configUpdate, endorserTransaction, ordererTransaction]

def ofNumber? (n : Int32) : Option HeaderType := list.find? (·.number = n)

end HeaderType

/-- What a transaction takes from its surroundings. -/
structure Stamp where
  nonce : Nonce
  /-- Whole seconds since 1970. -/
  seconds : Int64
  deriving DecidableEq, Repr

/-! ## Making -/

/-- Where a transaction belongs, apart from what its signer adds. -/
structure Address where
  type : HeaderType
  channelId : String
  version : Int32 := 0
  epoch : UInt64 := 0
  deriving DecidableEq, Repr

namespace Address

def channelHeader (a : Address) (seconds : Int64) (txId : String) : ChannelHeader where
  type := a.type.number
  version := a.version
  timestamp := some { seconds }
  channelId := a.channelId
  txId := txId
  epoch := a.epoch

/-- Data under both headers. -/
def payload (a : Address) (seconds : Int64) (header : SignatureHeader) (data : Bytes) : Payload where
  header := some {
    channelHeader := encode (a.channelHeader seconds header.transactionId)
    signatureHeader := encode header }
  data := data

end Address

/-- Data as a transaction, signed if there is a signer. -/
def signedEnvelope (a : Address) (signer : Option Signer) (stamp : Stamp) (data : Bytes) :
    Result Envelope := do
  let header ← SignatureHeader.make signer stamp.nonce
  let payload := encode (a.payload stamp.seconds header data)
  return { payload, signature := ← Signer.signFor .signEnvelope payload signer }

namespace ConfigUpdateEnvelope

/-- Adds a signature, over the signer's header and the update, after those that are there. The
envelope is what every call so far has made of it, also those that failed. -/
def signInPlace (signer : Signer) (nonce : Nonce) :
    ExceptT ConfigError (StateM ConfigUpdateEnvelope) Unit := do
  let signatureHeader := encode (← SignatureHeader.make (some signer) nonce)
  let message := signatureHeader ++ (← get).configUpdate
  let signature ← Signer.signFor .signUpdate message (some signer)
  modify fun e => { e with signatures := e.signatures ++ [{ signatureHeader, signature }] }

/-- The envelope with one more signature. -/
def sign (e : ConfigUpdateEnvelope) (signer : Signer) (nonce : Nonce) :
    Result ConfigUpdateEnvelope :=
  let (result, signed) := Id.run ((signInPlace signer nonce).run.run e)
  result.map fun _ => signed

/-- One signer after another, a failure of one being no concern of the next. -/
def signEach (calls : List (Signer × Nonce)) : StateM ConfigUpdateEnvelope (List (Result Unit)) :=
  calls.mapM fun (signer, nonce) => (signInPlace signer nonce).run

end ConfigUpdateEnvelope

/-! ## Opening -/

/-- What a transaction carries, and its channel header. -/
def Envelope.open (e : Envelope) : Result (Payload × ChannelHeader) := do
  let payload : Payload ← .ofDecode (decode e.payload)
  match payload.header with
  | none => .invalid .noPayloadHeader
  | some header => do
    let channelHeader ← .ofDecode (decode header.channelHeader)
    return (payload, channelHeader)

end ChannelConfig
