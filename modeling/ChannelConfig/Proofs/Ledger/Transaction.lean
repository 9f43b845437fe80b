import ChannelConfig.Ledger.Transaction
import ChannelConfig.Proofs.Wire.Flat

/-! Transactions from the outside in. What a message holds encoded is no longer than the message, so
that a bound on the outermost one is a bound on all; `Envelope.open_payload` opens what was made for
an address. `exists_signedEnvelope`: without a signer that fails, every transaction is made. -/

set_option autoImplicit false

namespace ChannelConfig

open Wire

/-! ## Lengths -/

theorem Envelope.length_payload_le (e : Envelope) : e.payload.length ≤ (encode e).length :=
  Fields.length_le_of_head (Field.length_toBytes_le_single 1 .bytes e.payload)

theorem Header.length_channelHeader_le (m : Header) :
    m.channelHeader.length ≤ (encode m).length :=
  Fields.length_le_of_head (Field.length_toBytes_le_single 1 .bytes m.channelHeader)

theorem Header.length_signatureHeader_le (m : Header) :
    m.signatureHeader.length ≤ (encode m).length :=
  Fields.length_le_of_tail (Fields.length_le_of_head
    (Field.length_toBytes_le_single 2 .bytes m.signatureHeader))

theorem Payload.length_data_le (p : Payload) : p.data.length ≤ (encode p).length :=
  Fields.length_le_of_tail (Fields.length_le_of_head
    (Field.length_toBytes_le_single 2 .bytes p.data))

theorem Payload.length_header_le {p : Payload} {header : Header} (h : p.header = some header) :
    (encode header).length ≤ (encode p).length := by
  refine Fields.length_le_of_head ?_
  rw [h]
  exact Field.length_toBytes_le_some 1 (message Header) header

theorem ConfigUpdateEnvelope.length_configUpdate_le (e : ConfigUpdateEnvelope) :
    e.configUpdate.length ≤ (encode e).length :=
  Fields.length_le_of_head (Field.length_toBytes_le_single 1 .bytes e.configUpdate)

/-! ## Opening -/

/-- What was put under two headers is found under them. -/
theorem Envelope.open_payload {e : Envelope} {a : Address} {seconds : Int64}
    {header : SignatureHeader} {data : Bytes}
    (he : e.payload = encode (a.payload seconds header data))
    (hlength : e.payload.length < UInt64.size) :
    e.open = .ok (a.payload seconds header data,
      a.channelHeader seconds header.transactionId) := by
  rw [he] at hlength
  have hpayload := decode_encode_of_flat (by decide) hlength
  -- the channel header stands encoded in the header of the payload, and is no longer than that
  have hchannel : (encode (a.channelHeader seconds header.transactionId)).length < UInt64.size := by
    refine Nat.lt_of_le_of_lt (Nat.le_trans ?_ (Payload.length_header_le rfl)) hlength
    exact Header.length_channelHeader_le { channelHeader := _, signatureHeader := encode header }
  have hheader := decode_encode_of_flat (by decide) hchannel
  rw [Envelope.open, he, hpayload]
  show (Result.ofDecode (decode (encode (a.channelHeader seconds header.transactionId))) >>= _) = _
  rw [hheader]
  rfl

/-- What an envelope carries as the update of a configuration. -/
def Envelope.Carries (e : Envelope) (update : ConfigUpdate) : Prop :=
  ∃ payload header signed, e.open = .ok (payload, header) ∧
    decode payload.data = .ok (signed : ConfigUpdateEnvelope) ∧
    decode signed.configUpdate = .ok update

theorem Envelope.carries_of_payload {e : Envelope} {a : Address} {seconds : Int64}
    {header : SignatureHeader} {signed : ConfigUpdateEnvelope} {update : ConfigUpdate}
    (he : e.payload = encode (a.payload seconds header (encode signed)))
    (hsigned : signed.configUpdate = encode update) (hnesting : nesting update ≤ maxLevels)
    (hlength : e.payload.length < UInt64.size) : e.Carries update := by
  have hdata := Payload.length_data_le (a.payload seconds header (encode signed))
  rw [← he] at hdata
  have henvelope : (encode signed).length < UInt64.size := Nat.lt_of_le_of_lt hdata hlength
  have hupdate : (encode update).length < UInt64.size := by
    rw [← hsigned]
    exact Nat.lt_of_le_of_lt signed.length_configUpdate_le henvelope
  refine ⟨_, _, signed, Envelope.open_payload he hlength, ?_, ?_⟩
  · exact decode_encode_of_flat (by decide) henvelope
  · rw [hsigned]
    exact decode_encode_of_le hupdate hnesting

/-! ## Making -/

/-- A signer at work: it shows itself in a header, and signs a message that is made with it. -/
theorem Signer.make_then_signFor {A : Type} (s : Signer) (nonce : Nonce) (task : Task)
    (message : SignatureHeader → Bytes) (f : SignatureHeader → Bytes → A) :
    (do
      let header ← SignatureHeader.make (some s) nonce
      let signature ← Signer.signFor task (message header) (some s)
      return f header signature : Result A) =
      match s.serialize with
      | .error text => .error (.collaborator [] .serializeIdentity (.signer text))
      | .ok creator =>
        let header : SignatureHeader := { creator, nonce := nonce.bytes }
        match s.sign (message header) with
        | .error text => .error (.collaborator [] task (.signer text))
        | .ok signature => .ok (f header signature) := by
  rw [SignatureHeader.make, Signer.creator]
  cases s.serialize with
  | error text => rfl
  | ok creator =>
    let header : SignatureHeader := { creator, nonce := nonce.bytes }
    show (Signer.signFor task (message header) (some s) >>= _) = _
    rw [Signer.signFor]
    dsimp only
    cases s.sign (message header) with
    | error text => rfl
    | ok signature => rfl

/-- A signer that never fails. -/
structure Signer.Reliable (s : Signer) : Prop where
  serialize : ∃ creator, s.serialize = .ok creator
  sign : ∀ message, ∃ signature, s.sign message = .ok signature

section

variable {signer : Option Signer} (h : ∀ s, signer = some s → s.Reliable)

include h

theorem exists_make (nonce : Nonce) : ∃ header, SignatureHeader.make signer nonce = .ok header := by
  cases signer with
  | none => exact ⟨_, rfl⟩
  | some s =>
    obtain ⟨creator, hcreator⟩ := (h s rfl).serialize
    rw [SignatureHeader.make, Signer.creator, hcreator]
    exact ⟨_, rfl⟩

theorem exists_signFor (task : Task) (message : Bytes) :
    ∃ signature, Signer.signFor task message signer = .ok signature := by
  cases signer with
  | none => exact ⟨_, rfl⟩
  | some s =>
    obtain ⟨signature, hsignature⟩ := (h s rfl).sign message
    rw [Signer.signFor, hsignature]
    exact ⟨_, rfl⟩

theorem exists_signedEnvelope (a : Address) (stamp : Stamp) (data : Bytes) :
    ∃ e header, signedEnvelope a signer stamp data = .ok e ∧
      e.payload = encode (a.payload stamp.seconds header data) := by
  obtain ⟨header, hheader⟩ := exists_make h stamp.nonce
  obtain ⟨signature, hsignature⟩ :=
    exists_signFor h .signEnvelope (encode (a.payload stamp.seconds header data))
  refine ⟨{ payload := _, signature }, header, ?_, rfl⟩
  rw [signedEnvelope, hheader]
  show (Signer.signFor .signEnvelope (encode (a.payload stamp.seconds header data)) signer >>= _) = _
  rw [hsignature]
  rfl

end

end ChannelConfig
