import ChannelConfig.Proofs.Ledger.Transaction

/-! Opening what was sealed. `signedEnvelope_cases` lists how the making of an envelope ends: the
signer does not name itself, it does not sign, or there is an envelope. What such an envelope opens to is
read off the bytes of its payload, the signature header as well as the channel header, and the
transaction is named after the header that is found there. -/

set_option autoImplicit false

namespace ChannelConfig

open Wire

/-! ## Making -/

/-- What is signed: the payload as it is written, under the headers of that creator. -/
def Address.unsigned (a : Address) (stamp : Stamp) (data creator : Bytes) : Bytes :=
  encode (a.payload stamp.seconds { creator, nonce := stamp.nonce.bytes } data)

/-- Why a transaction is not made: its signer does not name itself, or it does and does not sign. -/
def ConfigError.FailsToSeal (error : ConfigError) (unsigned : (creator : Bytes) → Bytes) :
    Option Signer → Prop
  | none => False
  | some s =>
    (∃ text, s.serialize = .error text ∧
      error = .collaborator [] .serializeIdentity (.signer text)) ∨
    ∃ creator text, s.serialize = .ok creator ∧ s.sign (unsigned creator) = .error text ∧
      error = .collaborator [] .signEnvelope (.signer text)

/-- The envelope is signed as a whole by the signer who shows that creator, if there is one. -/
def Envelope.SignedBy (e : Envelope) (creator : Bytes) : Option Signer → Prop
  | none => creator = [] ∧ e.signature = []
  | some s => s.serialize = .ok creator ∧ s.sign e.payload = .ok e.signature

theorem signedEnvelope_some (a : Address) (s : Signer) (stamp : Stamp) (data : Bytes) :
    signedEnvelope a (some s) stamp data =
      match s.serialize with
      | .error text => .error (.collaborator [] .serializeIdentity (.signer text))
      | .ok creator =>
        match s.sign (a.unsigned stamp data creator) with
        | .error text => .error (.collaborator [] .signEnvelope (.signer text))
        | .ok signature => .ok { payload := a.unsigned stamp data creator, signature } := by
  let payload (header : SignatureHeader) : Bytes := encode (a.payload stamp.seconds header data)
  exact s.make_then_signFor stamp.nonce .signEnvelope payload fun header signature =>
    ({ payload := payload header, signature } : Envelope)

theorem signedEnvelope_cases (a : Address) (signer : Option Signer) (stamp : Stamp) (data : Bytes) :
    (∃ error, signedEnvelope a signer stamp data = .error error ∧
      error.FailsToSeal (a.unsigned stamp data) signer) ∨
    ∃ e creator, signedEnvelope a signer stamp data = .ok e ∧ e.SignedBy creator signer ∧
      e.payload = a.unsigned stamp data creator := by
  cases signer with
  | none => exact .inr ⟨_, [], rfl, ⟨rfl, rfl⟩, rfl⟩
  | some s =>
    rw [signedEnvelope_some]
    cases hserialize : s.serialize with
    | error text => exact .inl ⟨_, rfl, .inl ⟨text, hserialize, rfl⟩⟩
    | ok creator =>
      dsimp only
      cases hsign : s.sign (a.unsigned stamp data creator) with
      | error text => exact .inl ⟨_, rfl, .inr ⟨creator, text, hserialize, hsign, rfl⟩⟩
      | ok signature => exact .inr ⟨_, creator, rfl, ⟨hserialize, hsign⟩, rfl⟩

/-! ## Opening -/

/-- What an envelope opens to: the data, the channel header, and the header of its signer. -/
structure Envelope.Opens (e : Envelope) (a : Address) (seconds : Int64) (creator data : Bytes)
    (payload : Payload) (channel : ChannelHeader) (own : SignatureHeader) : Prop where
  opens : e.open = .ok (payload, channel)
  data : payload.data = data
  type : channel.type = a.type.number
  version : channel.version = a.version
  channelId : channel.channelId = a.channelId
  epoch : channel.epoch = a.epoch
  timestamp : channel.timestamp = some { seconds, nanos := 0 }
  extension : channel.extension = []
  tlsCertHash : channel.tlsCertHash = []
  header : ∃ header, payload.header = some header ∧ decode header.signatureHeader = .ok own
  creator : own.creator = creator
  nonce : own.nonce.length = 24
  txId : channel.txId = transactionId own.nonce own.creator

theorem Envelope.opens_of_payload {e : Envelope} {a : Address} {stamp : Stamp}
    {data creator : Bytes} (he : e.payload = a.unsigned stamp data creator)
    (hlength : e.payload.length < UInt64.size) :
    ∃ payload channel own, e.Opens a stamp.seconds creator data payload channel own := by
  let own : SignatureHeader := { creator, nonce := stamp.nonce.bytes }
  let header : Header := {
    channelHeader := encode (a.channelHeader stamp.seconds own.transactionId)
    signatureHeader := encode own }
  have hopen := Envelope.open_payload he hlength
  -- the header of the signer is no longer than the payload that it stands in
  have hown : (encode own).length < UInt64.size := by
    rw [he] at hlength
    refine Nat.lt_of_le_of_lt ?_ hlength
    exact Nat.le_trans header.length_signatureHeader_le (Payload.length_header_le rfl)
  have hdecode : decode (encode own) = .ok own := decode_encode_of_flat (by decide) hown
  refine ⟨a.payload stamp.seconds own data, a.channelHeader stamp.seconds own.transactionId, own, ?_⟩
  constructor
  case opens => exact hopen
  case header => exact ⟨header, rfl, hdecode⟩
  case nonce => exact stamp.nonce.length_bytes
  all_goals rfl

/-- A transaction is made of every message, for every address, unless its signer fails. It opens to
what it was made of, under a header that shows the signer, and is named after that header; the
signature covers the payload as it stands in the envelope. -/
theorem open_signedEnvelope {M : Type} [Message M] (a : Address) (signer : Option Signer)
    (stamp : Stamp) (m : M) :
    (∃ error, signedEnvelope a signer stamp (encode m) = .error error ∧
      error.FailsToSeal (a.unsigned stamp (encode m)) signer) ∨
    ∃ e creator, signedEnvelope a signer stamp (encode m) = .ok e ∧ e.SignedBy creator signer ∧
      (e.payload.length < UInt64.size → ∃ payload channel own,
        e.Opens a stamp.seconds creator (encode m) payload channel own) := by
  rcases signedEnvelope_cases a signer stamp (encode m) with hfails | hmade
  · exact .inl hfails
  · obtain ⟨e, creator, hok, hsigned, hpayload⟩ := hmade
    exact .inr ⟨e, creator, hok, hsigned, Envelope.opens_of_payload hpayload⟩

/-- Shows who it is by one byte, and signs with the length of what it is given. -/
def countingSigner : Signer where
  serialize := .ok [7]
  sign message := .ok [UInt8.ofNat message.length]

/-- Names no channel, and has a version that takes ten bytes. -/
def bareAddress : Address := { type := .message, channelId := "", version := -1 }

theorem open_signedEnvelope_negative_version : ∃ e creator,
    signedEnvelope bareAddress countingSigner ⟨.ofBytes [2], 0⟩ (encode ({} : Config)) =
      .ok e ∧
    e.SignedBy creator countingSigner ∧ e.payload.length < UInt64.size ∧
    ∃ payload channel own, e.Opens bareAddress 0 creator (encode ({} : Config))
      payload channel own := by
  have hshort : ∀ e, (signedEnvelope bareAddress countingSigner ⟨.ofBytes [2], 0⟩
      (encode ({} : Config))).toOption = some e → e.payload.length < UInt64.size := by
    decide +kernel
  rcases open_signedEnvelope bareAddress countingSigner ⟨.ofBytes [2], 0⟩ ({} : Config) with
    ⟨error, -, ⟨text, hserialize, -⟩ | ⟨creator, text, -, hsign, -⟩⟩ | ⟨e, creator, he, hsigned, h⟩
  · cases hserialize
  · cases hsign
  · have hlength : e.payload.length < UInt64.size := hshort e (by rw [he]; rfl)
    exact ⟨e, creator, he, hsigned, hlength, h hlength⟩

end ChannelConfig
