import ChannelConfig.Proofs.Ledger.Signing

/-! The bytes that a signature of an update covers. Header and update stand one after the other with
nothing in between, and they can still be told apart: a written header ends with its nonce, the one
record under that number, and no sequence of records is the beginning of another one that ends so. -/

set_option autoImplicit false

namespace ChannelConfig

open Wire

/-- A list that ends with its only element of a kind begins no longer list of this form. -/
theorem eq_of_prefix_concat {A : Type} {p : A → Prop} {before before' : List A} {a a' : A}
    (ha : p a) (hbefore' : ∀ b ∈ before', ¬ p b) (h : before ++ [a] <+: before' ++ [a']) :
    before ++ [a] = before' ++ [a'] := by
  rcases List.prefix_concat_iff.1 h with heq | hshort
  · exact heq
  · have hmem : a ∈ before' := hshort.subset (List.mem_append_right before (List.mem_singleton_self a))
    exact absurd ha (hbefore' a hmem)

namespace SignatureHeader

/-- The record of the creator, unless that is empty. -/
def creatorRecords (h : SignatureHeader) : List Record :=
  (Field.bytes.bodies h.creator).map (Record.mk 1)

def records (h : SignatureHeader) : List Record :=
  h.creatorRecords ++ [⟨2, .delimited h.nonce⟩]

theorem encode_eq_serialize {h : SignatureHeader} (hnonce : h.nonce ≠ []) :
    encode h = serialize h.records := by
  have hlast : Field.bytes.bodies h.nonce = [.delimited h.nonce] := by
    unfold Field.bytes
    rw [Field.bodies_single]
    exact if_neg hnonce
  show serialize (h.creatorRecords ++ ((Field.bytes.bodies h.nonce).map (Record.mk 2) ++ [])) = _
  rw [hlast, List.append_nil]
  rfl

theorem number_of_mem_creatorRecords {h : SignatureHeader} {r : Record}
    (hr : r ∈ h.creatorRecords) : ¬ r.number = 2 := by
  obtain ⟨body, -, rfl⟩ := List.mem_map.1 hr
  simp

theorem body_ne_foreign_of_mem_records {h : SignatureHeader} {r : Record} (hr : r ∈ h.records) :
    r.body ≠ .foreign := by
  rcases List.mem_append.1 hr with hr | hr
  · obtain ⟨body, hbody, rfl⟩ := List.mem_map.1 hr
    rintro rfl
    exact Field.lawful_bytes.sound.bodies h.creator .foreign hbody
  · rw [List.mem_singleton.1 hr]
    simp

theorem records_eq_of_begins {h h' : SignatureHeader} (hp : h.records <+: h'.records) :
    h.records = h'.records :=
  eq_of_prefix_concat (p := fun r : Record => r.number = 2) rfl
    (fun _ => number_of_mem_creatorRecords) hp

/-- A header and whatever follows it are read off their bytes in one way only. -/
theorem encode_append_inj {h h' : SignatureHeader} {x y : Bytes} (hnonce : h.nonce ≠ [])
    (hnonce' : h'.nonce ≠ []) (he : encode h ++ x = encode h' ++ y) : h = h' ∧ x = y := by
  have hrecords : h.records = h'.records := by
    rw [encode_eq_serialize hnonce, encode_eq_serialize hnonce'] at he
    rcases prefix_or_prefix_of_serialize_append (fun _ => body_ne_foreign_of_mem_records)
      (fun _ => body_ne_foreign_of_mem_records) he with hp | hp
    · exact records_eq_of_begins hp
    · exact (records_eq_of_begins hp).symm
  have hencode : encode h = encode h' := by
    rw [encode_eq_serialize hnonce, encode_eq_serialize hnonce', hrecords]
  rw [hencode] at he
  exact ⟨encode_inj.1 hencode, List.append_cancel_left he⟩

end SignatureHeader

namespace ConfigUpdateEnvelope

theorem exists_of_run_signInPlace {e e' : ConfigUpdateEnvelope} {signer : Signer} {nonce : Nonce}
    (hrun : (signInPlace signer nonce).run.run e = (.ok (), e')) :
    ∃ header signature, signer.serialize = .ok header.creator ∧ header.nonce = nonce.bytes ∧
      signer.sign (encode (header : SignatureHeader) ++ e.configUpdate) = .ok signature ∧
      e' = { e with
        signatures := e.signatures ++ [{ signatureHeader := encode header, signature }] } := by
  rw [run_signInPlace, signature] at hrun
  cases hserialize : signer.serialize with
  | error text =>
    rw [hserialize] at hrun
    cases hrun
  | ok creator =>
    rw [hserialize] at hrun
    dsimp only at hrun
    cases hsign : signer.sign
        (encode ({ creator, nonce := nonce.bytes } : SignatureHeader) ++ e.configUpdate) with
    | error text =>
      rw [hsign] at hrun
      cases hrun
    | ok signature =>
      rw [hsign] at hrun
      exact ⟨{ creator, nonce := nonce.bytes }, signature, rfl, rfl, hsign,
        (Prod.mk.inj hrun).2.symm⟩

/-- The bytes that are signed fix the header and the update, whatever the creator and the update
are. So the signature that a call adds covers the header and the update of that call, and those of
no other one. -/
theorem signedBytes_fix_header_and_update :
    (∀ (header header' : SignatureHeader) (update update' : Bytes), header.nonce.length = 24 →
      header'.nonce.length = 24 → encode header ++ update = encode header' ++ update' →
      header = header' ∧ update = update') ∧
    ∀ (e e' : ConfigUpdateEnvelope) (signer : Signer) (nonce : Nonce),
      (signInPlace signer nonce).run.run e = (.ok (), e') →
      ∃ header signature, signer.serialize = .ok header.creator ∧ header.nonce = nonce.bytes ∧
        signer.sign (encode (header : SignatureHeader) ++ e.configUpdate) = .ok signature ∧
        e' = { e with
          signatures := e.signatures ++ [{ signatureHeader := encode header, signature }] } ∧
        ∀ (header' : SignatureHeader) (update' : Bytes), header'.nonce.length = 24 →
          encode header' ++ update' = encode header ++ e.configUpdate →
          header' = header ∧ update' = e.configUpdate := by
  have hne : ∀ {header : SignatureHeader}, header.nonce.length = 24 → header.nonce ≠ [] := by
    intro header hlength hnil
    simp [hnil] at hlength
  have hfix : ∀ (header header' : SignatureHeader) (update update' : Bytes),
      header.nonce.length = 24 → header'.nonce.length = 24 →
      encode header ++ update = encode header' ++ update' → header = header' ∧ update = update' := by
    intro header header' update update' hlength hlength' he
    exact SignatureHeader.encode_append_inj (hne hlength) (hne hlength') he
  refine ⟨hfix, ?_⟩
  intro e e' signer nonce hrun
  obtain ⟨header, signature, hcreator, hnonce, hsign, he'⟩ := exists_of_run_signInPlace hrun
  refine ⟨header, signature, hcreator, hnonce, hsign, he', ?_⟩
  intro header' update' hlength' he
  have hlength : header.nonce.length = 24 := by
    rw [hnonce]
    exact nonce.length_bytes
  exact hfix header' header update' e.configUpdate hlength' hlength he

/-- A signer without an identity, who signs with the length of what is to be signed. -/
def plainSigner : Signer where
  serialize := .ok []
  sign message := .ok [UInt8.ofNat message.length]

def plainHeader : SignatureHeader := { creator := [], nonce := 1 :: List.replicate 23 0 }

/-- The update could be read as one more nonce, of no bytes. -/
theorem signedBytes_fix_header_and_update_plain :
    plainHeader.nonce.length = 24 ∧
    encode plainHeader ++ [18, 0] = 18 :: 24 :: plainHeader.nonce ++ [18, 0] ∧
    (∀ (header : SignatureHeader) (update : Bytes), header.nonce.length = 24 →
      encode header ++ update = 18 :: 24 :: plainHeader.nonce ++ [18, 0] →
      header = plainHeader ∧ update = [18, 0]) ∧
    ∃ e' header signature,
      (signInPlace plainSigner (.ofBytes [1])).run.run { configUpdate := [18, 0] } = (.ok (), e') ∧
      plainSigner.serialize = .ok header.creator ∧ header.nonce = (Nonce.ofBytes [1]).bytes ∧
      plainSigner.sign (encode (header : SignatureHeader) ++ [18, 0]) = .ok signature ∧
      e'.signatures = [{ signatureHeader := encode header, signature }] := by
  have hlength : plainHeader.nonce.length = 24 := rfl
  have hbytes : encode plainHeader ++ [18, 0] = 18 :: 24 :: plainHeader.nonce ++ [18, 0] := by
    decide +kernel
  have hrun : (signInPlace plainSigner (.ofBytes [1])).run.run { configUpdate := [18, 0] } =
      (.ok (), _) := rfl
  obtain ⟨hfix, hcall⟩ := signedBytes_fix_header_and_update
  refine ⟨hlength, hbytes, ?_, ?_⟩
  · intro header update hheader he
    exact hfix header plainHeader update [18, 0] hheader hlength (he.trans hbytes.symm)
  · obtain ⟨header, signature, hcreator, hnonce, hsign, he', -⟩ := hcall _ _ _ _ hrun
    refine ⟨_, header, signature, hrun, hcreator, hnonce, hsign, ?_⟩
    rw [he']
    rfl

end ConfigUpdateEnvelope

end ChannelConfig
