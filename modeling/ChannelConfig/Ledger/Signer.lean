import ChannelConfig.Crypto.Ecdsa
import ChannelConfig.Crypto.PrivateKey
import ChannelConfig.Error
import ChannelConfig.Ledger.Envelope
import ChannelConfig.Msp.Message

/-!
# Signers

A signer shows the network who it is and signs on behalf of its organization; either may fail.
`KeySigner` signs with a private key at hand.
-/

set_option autoImplicit false

namespace ChannelConfig

/-- Bytes that are used once only, so that no two transactions are the same. -/
structure Nonce where
  bytes : Bytes
  length_bytes : bytes.length = 24
  deriving DecidableEq, Repr

/-- The first 24 of these bytes, and zeros where there are fewer. -/
def Nonce.ofBytes (bs : Bytes) : Nonce := ⟨(bs ++ List.replicate 24 0).take 24, by simp⟩

structure Signer where
  /-- The identity, as the network reads it. -/
  serialize : Except String Bytes
  /-- The signature of a message. -/
  sign : Bytes → Except String Bytes

namespace Signer

/-- The identity of the signer, empty without one. -/
def creator : Option Signer → Result Bytes
  | none => .ok []
  | some s => s.serialize.mapError fun text => .collaborator [] .serializeIdentity (.signer text)

/-- The signature of a message, empty without a signer. -/
def signFor (task : Task) (message : Bytes) : Option Signer → Result Bytes
  | none => .ok []
  | some s => (s.sign message).mapError fun text => .collaborator [] task (.signer text)

end Signer

/-! ## Signing with a key -/

structure KeySigner where
  secret : Nat
  mspId : String
  certificate : Bytes
  deriving DecidableEq, Repr

namespace KeySigner

def ofPem (pem : String) (mspId : String) (certificate : Bytes) : Result KeySigner :=
  match PrivateKey.ofPem? pem with
  | some secret => .ok { secret, mspId, certificate }
  | none => .error (.collaborator [] .readSigningKey .key)

def publicKey (s : KeySigner) : Bytes := (P256.publicKey s.secret).toBytes

def signer (s : KeySigner) : Signer where
  serialize := .ok (Wire.encode { mspId := s.mspId, idBytes := s.certificate : SerializedIdentity })
  sign message :=
    match Ecdsa.sign? s.secret message with
    | some signature => .ok signature.toDer
    | none => .error "signature error"

end KeySigner

/-! ## Headers -/

def SignatureHeader.make (signer : Option Signer) (nonce : Nonce) : Result SignatureHeader := do
  return { creator := ← Signer.creator signer, nonce := nonce.bytes }

/-- The name of a transaction: the hash of what is its own, in hexadecimal. -/
def transactionId (nonce creator : Bytes) : String := (Sha256.hash (nonce ++ creator)).toHex

def SignatureHeader.transactionId (h : SignatureHeader) : String :=
  ChannelConfig.transactionId h.nonce h.creator

end ChannelConfig
