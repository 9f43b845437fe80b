import ChannelConfig.Proofs.Ledger.Transaction
import ChannelConfig.Proofs.Result
import Mathlib.Data.List.Forall2

/-! Several signers, one after another. A call in place is the call on a value of its own
(`run_signInPlace`), and what it adds depends on the update alone, which no call changes. So a run
leaves what its calls add one by one (`run_signEach`), and a call that fails adds nothing. -/

set_option autoImplicit false

namespace ChannelConfig

open Wire

/-- What a call adds to an update: a header of its own, and a signature over the header and the
update. -/
structure ConfigSignature.MadeBy (update : Bytes) (call : Signer × Nonce)
    (entry : ConfigSignature) : Prop where
  header : ∃ creator, call.1.serialize = .ok creator ∧
    decode entry.signatureHeader = .ok ({ creator, nonce := call.2.bytes } : SignatureHeader) ∧
    call.2.bytes.length = 24
  signature : call.1.sign (entry.signatureHeader ++ update) = .ok entry.signature

/-- Why a call fails: its signer does not name itself, or it does and does not sign. -/
def ConfigError.FailsToSign (error : ConfigError) (update : Bytes) (call : Signer × Nonce) : Prop :=
  (∃ text, call.1.serialize = .error text ∧
    error = .collaborator [] .serializeIdentity (.signer text)) ∨
  (∃ creator text, call.1.serialize = .ok creator ∧
    call.1.sign (encode ({ creator, nonce := call.2.bytes } : SignatureHeader) ++ update) =
      .error text ∧
    error = .collaborator [] .signUpdate (.signer text))

namespace ConfigUpdateEnvelope

/-! ## One call -/

/-- The signature that a call adds, or why it adds none. -/
def signature (e : ConfigUpdateEnvelope) (signer : Signer) (nonce : Nonce) :
    Result ConfigSignature :=
  match signer.serialize with
  | .error text => .error (.collaborator [] .serializeIdentity (.signer text))
  | .ok creator =>
    let signatureHeader := encode ({ creator, nonce := nonce.bytes } : SignatureHeader)
    match signer.sign (signatureHeader ++ e.configUpdate) with
    | .error text => .error (.collaborator [] .signUpdate (.signer text))
    | .ok signature => .ok { signatureHeader, signature }

/-- A step that does not touch the state ends a run in place if it fails. -/
theorem run_lift_bind {E S A B : Type} (x : Except E A) (f : A → ExceptT E (StateM S) B) (s : S) :
    ((liftM x >>= f : ExceptT E (StateM S) B).run).run s =
      match x with
      | .ok a => (f a).run.run s
      | .error e => (.error e, s) := by
  cases x <;> rfl

/-- A call in place either adds its signature or leaves the envelope as it was. -/
theorem run_signInPlace (e : ConfigUpdateEnvelope) (signer : Signer) (nonce : Nonce) :
    (signInPlace signer nonce).run.run e =
      match e.signature signer nonce with
      | .ok entry => (.ok (), { e with signatures := e.signatures ++ [entry] })
      | .error error => (.error error, e) := by
  rw [signInPlace, run_lift_bind, SignatureHeader.make, Signer.creator, signature]
  cases signer.serialize with
  | error text => rfl
  | ok creator =>
    show ((liftM (Signer.signFor .signUpdate
      (encode ({ creator, nonce := nonce.bytes } : SignatureHeader) ++ e.configUpdate)
      (some signer)) >>= _ : ExceptT ConfigError (StateM ConfigUpdateEnvelope) Unit).run).run e = _
    rw [run_lift_bind, Signer.signFor]
    dsimp only
    cases signer.sign
        (encode ({ creator, nonce := nonce.bytes } : SignatureHeader) ++ e.configUpdate) with
    | error text => rfl
    | ok signature => rfl

theorem sign_eq (e : ConfigUpdateEnvelope) (signer : Signer) (nonce : Nonce) :
    e.sign signer nonce = (e.signature signer nonce).map fun entry =>
      { e with signatures := e.signatures ++ [entry] } := by
  rw [sign, run_signInPlace]
  cases e.signature signer nonce with
  | error error => rfl
  | ok entry => rfl

theorem exists_signature {signer : Signer} (h : signer.Reliable) (e : ConfigUpdateEnvelope)
    (nonce : Nonce) : ∃ entry, e.signature signer nonce = .ok entry := by
  obtain ⟨creator, hcreator⟩ := h.serialize
  obtain ⟨signature, hsignature⟩ :=
    h.sign (encode ({ creator, nonce := nonce.bytes } : SignatureHeader) ++ e.configUpdate)
  rw [ConfigUpdateEnvelope.signature, hcreator]
  dsimp only
  rw [hsignature]
  exact ⟨_, rfl⟩

/-- A signer that never fails adds its signature, and leaves the update as it is. -/
theorem exists_sign {signer : Signer} (h : signer.Reliable) (e : ConfigUpdateEnvelope)
    (nonce : Nonce) :
    ∃ signed, e.sign signer nonce = .ok signed ∧ signed.configUpdate = e.configUpdate := by
  obtain ⟨entry, hentry⟩ := exists_signature h e nonce
  rw [sign_eq, hentry]
  exact ⟨_, rfl, rfl⟩

/-! ## One call after another -/

/-- What a call tells its caller, and what it adds if it succeeds. -/
def outcome (e : ConfigUpdateEnvelope) (call : Signer × Nonce) : Result Unit :=
  (e.signature call.1 call.2).map fun _ => ()

def added (e : ConfigUpdateEnvelope) (call : Signer × Nonce) : Option ConfigSignature :=
  (e.signature call.1 call.2).toOption

section

variable {e : ConfigUpdateEnvelope} {call : Signer × Nonce}

theorem outcome_of_error {error : ConfigError} (h : e.signature call.1 call.2 = .error error) :
    e.outcome call = .error error := by
  rw [outcome, h]
  rfl

theorem added_of_error {error : ConfigError} (h : e.signature call.1 call.2 = .error error) :
    e.added call = none := by
  rw [added, h]
  rfl

theorem outcome_of_ok {entry : ConfigSignature} (h : e.signature call.1 call.2 = .ok entry) :
    e.outcome call = .ok () := by
  rw [outcome, h]
  rfl

theorem added_of_ok {entry : ConfigSignature} (h : e.signature call.1 call.2 = .ok entry) :
    e.added call = some entry := by
  rw [added, h]
  rfl

theorem signature_of_outcome {error : ConfigError} (h : e.outcome call = .error error) :
    e.signature call.1 call.2 = .error error := by
  cases hsignature : e.signature call.1 call.2 with
  | error error' =>
    rw [outcome_of_error hsignature] at h
    cases h
    rfl
  | ok entry =>
    rw [outcome_of_ok hsignature] at h
    cases h

end

/-- Each call does in the run what it would do alone on the envelope that the run starts from. -/
theorem run_signEach (e : ConfigUpdateEnvelope) (calls : List (Signer × Nonce)) :
    (signEach calls).run e =
      (calls.map e.outcome, { e with signatures := e.signatures ++ calls.filterMap e.added }) := by
  induction calls generalizing e with
  | nil =>
    show ([], e) = _
    rw [List.filterMap_nil, List.append_nil]
    rfl
  | cons call calls ih =>
    have hfirst := run_signInPlace e call.1 call.2
    have hrun : (signEach (call :: calls)).run e =
        let (result, next) := (signInPlace call.1 call.2).run.run e
        let (results, last) := (signEach calls).run next
        (result :: results, last) := by
      rw [signEach, List.mapM_cons]
      rfl
    rw [hrun, hfirst, List.map_cons]
    cases hcall : e.signature call.1 call.2 with
    | error error =>
      rw [outcome_of_error hcall, List.filterMap_cons_none (added_of_error hcall)]
      simp only [ih]
    | ok entry =>
      -- the envelope of the rest has one signature more, and the same update to be signed
      rw [outcome_of_ok hcall, List.filterMap_cons_some (added_of_ok hcall)]
      simp only [ih, List.append_assoc, List.singleton_append]
      rfl

/-! ## What a run leaves -/

theorem SignatureHeader.decode_encode {creator : Bytes} (nonce : Nonce)
    (hcreator : creator.length < 9223372036854775808) :
    decode (encode ({ creator, nonce := nonce.bytes } : SignatureHeader)) =
      .ok ({ creator, nonce := nonce.bytes } : SignatureHeader) := by
  have hlength : (encode ({ creator, nonce := nonce.bytes } : SignatureHeader)).length ≤
      (creator.length + 11) + (nonce.bytes.length + 11) := by
    show ((Fields.cons 1 Field.bytes (.cons 2 .bytes .nil)).encode (creator, nonce.bytes, ())).length
      ≤ _
    have hfits : nonce.bytes.length < UInt64.size := by
      rw [nonce.length_bytes]
      decide
    rw [Fields.encode_cons, Fields.encode_cons, Fields.encode_nil, List.append_nil,
      List.length_append]
    refine Nat.add_le_add (Field.length_single_le (by decide) ?_)
      (Field.length_single_le (by decide) hfits)
    exact Nat.lt_trans hcreator (by decide)
  rw [nonce.length_bytes] at hlength
  refine decode_encode_of_flat (by decide) ?_
  simp only [UInt64.size]
  omega

section

variable {e : ConfigUpdateEnvelope} {call : Signer × Nonce}

theorem madeBy_of_signature {entry : ConfigSignature}
    (hcreator : ∀ creator, call.1.serialize = .ok creator → creator.length < 9223372036854775808)
    (h : e.signature call.1 call.2 = .ok entry) : entry.MadeBy e.configUpdate call := by
  rw [ConfigUpdateEnvelope.signature] at h
  split at h
  · cases h
  · next creator hserialize =>
    dsimp only at h
    split at h
    · cases h
    · next signature hsign =>
      cases h
      have hdecode := SignatureHeader.decode_encode call.2 (hcreator creator hserialize)
      exact ⟨⟨creator, hserialize, hdecode, call.2.length_bytes⟩, hsign⟩

theorem failsToSign_of_signature {error : ConfigError}
    (h : e.signature call.1 call.2 = .error error) : error.FailsToSign e.configUpdate call := by
  rw [ConfigUpdateEnvelope.signature] at h
  split at h
  · next text hserialize =>
    cases h
    exact .inl ⟨text, hserialize, rfl⟩
  · next creator hserialize =>
    dsimp only at h
    split at h
    · next text hsign =>
      cases h
      exact .inr ⟨creator, text, hserialize, hsign, rfl⟩
    · cases h

end

/-- The calls that were told of success, in order. -/
def succeeded (calls : List (Signer × Nonce)) (results : List (Result Unit)) :
    List (Signer × Nonce) :=
  ((calls.zip results).filter (·.2.isOk)).map (·.1)

/-- The envelope after the first so many calls. -/
def after (e : ConfigUpdateEnvelope) (calls : List (Signer × Nonce)) (n : Nat) :
    ConfigUpdateEnvelope :=
  ((signEach (calls.take n)).run e).2

theorem forall₂_succeeded {e : ConfigUpdateEnvelope} {calls : List (Signer × Nonce)}
    (hcreators : ∀ call ∈ calls, ∀ creator, call.1.serialize = .ok creator →
      creator.length < 9223372036854775808) :
    List.Forall₂ (ConfigSignature.MadeBy e.configUpdate) (succeeded calls (calls.map e.outcome))
      (calls.filterMap e.added) := by
  induction calls with
  | nil => exact .nil
  | cons call calls ih =>
    obtain ⟨hcall, hcalls⟩ := List.forall_mem_cons.1 hcreators
    have hrest := ih hcalls
    cases hsignature : e.signature call.1 call.2 with
    | error error =>
      have hskip : succeeded (call :: calls) ((call :: calls).map e.outcome) =
          succeeded calls (calls.map e.outcome) := by
        rw [List.map_cons, outcome_of_error hsignature]
        rfl
      rw [List.filterMap_cons_none (added_of_error hsignature), hskip]
      exact hrest
    | ok entry =>
      have hkeep : succeeded (call :: calls) ((call :: calls).map e.outcome) =
          call :: succeeded calls (calls.map e.outcome) := by
        rw [List.map_cons, outcome_of_ok hsignature]
        rfl
      rw [List.filterMap_cons_some (added_of_ok hsignature), hkeep]
      exact .cons (madeBy_of_signature hcall hsignature) hrest

/-- However many signers sign an update, and whichever of them fail: the update stays as it is, each
call that succeeds adds one signature of its own, in order, and a call that fails says why and
changes nothing. The bound is that of memory. -/
theorem signEach_sound {e final : ConfigUpdateEnvelope} {calls : List (Signer × Nonce)}
    {results : List (Result Unit)}
    (hcreators : ∀ call ∈ calls, ∀ creator, call.1.serialize = .ok creator →
      creator.length < 9223372036854775808)
    (hrun : (signEach calls).run e = (results, final)) :
    final.configUpdate = e.configUpdate ∧
    (∃ entries, final.signatures = e.signatures ++ entries ∧
      List.Forall₂ (ConfigSignature.MadeBy e.configUpdate) (succeeded calls results) entries) ∧
    results.length = calls.length ∧
    ∀ i call error, calls[i]? = some call → results[i]? = some (.error error) →
      error.FailsToSign e.configUpdate call ∧ e.after calls (i + 1) = e.after calls i := by
  rw [run_signEach] at hrun
  obtain ⟨rfl, rfl⟩ := Prod.mk.inj hrun
  refine ⟨rfl, ⟨_, rfl, forall₂_succeeded hcreators⟩, List.length_map _, ?_⟩
  intro i call error hcall herror
  rw [List.getElem?_map, hcall] at herror
  have hsignature := signature_of_outcome (Option.some.inj herror)
  refine ⟨failsToSign_of_signature hsignature, ?_⟩
  rw [after, after, run_signEach, run_signEach, List.take_add_one, hcall, List.filterMap_append,
    Option.toList_some, List.filterMap_cons_none (added_of_error hsignature), List.filterMap_nil,
    List.append_nil]

/-- A signer that signs with the length of what it signs, one that cannot name itself, one that does
not sign, and the first one again. -/
def mixedCalls : List (Signer × Nonce) :=
  let willing : Signer := { serialize := .ok [1], sign := fun m => .ok [UInt8.ofNat m.length] }
  let nameless : Signer := { serialize := .error "no identity", sign := fun _ => .ok [] }
  let unwilling : Signer := { serialize := .ok [2], sign := fun _ => .error "refused" }
  [(willing, .ofBytes [1]), (nameless, .ofBytes [2]), (unwilling, .ofBytes [3]),
    (willing, .ofBytes [4])]

/-- What the callers are told. -/
def mixedResults : List (Result Unit) :=
  [.ok (), .error (.collaborator [] .serializeIdentity (.signer "no identity")),
    .error (.collaborator [] .signUpdate (.signer "refused")), .ok ()]

theorem signEach_sound_mixed :
    (∀ call ∈ mixedCalls, ∀ creator, call.1.serialize = .ok creator →
      creator.length < 9223372036854775808) ∧
    ∃ final, (signEach mixedCalls).run { configUpdate := [7], signatures := [{}] } =
        (mixedResults, final) ∧
      final.configUpdate = [7] ∧
      (∃ entries, final.signatures = {} :: entries ∧ entries.length = 2 ∧
        List.Forall₂ (ConfigSignature.MadeBy [7]) (succeeded mixedCalls mixedResults) entries) := by
  have hcreators : ∀ call ∈ mixedCalls, ∀ creator, call.1.serialize = .ok creator →
      creator.length < 9223372036854775808 := by
    intro call hcall creator hcreator
    simp only [mixedCalls, List.mem_cons, List.not_mem_nil, or_false] at hcall
    rcases hcall with rfl | rfl | rfl | rfl <;> cases hcreator <;> decide
  have hrun : (signEach mixedCalls).run { configUpdate := [7], signatures := [{}] } =
      (mixedResults, _) := rfl
  obtain ⟨hupdate, ⟨entries, hentries, hmade⟩, -, -⟩ := signEach_sound hcreators hrun
  exact ⟨hcreators, _, hrun, hupdate, entries, hentries, hmade.length_eq.symm, hmade⟩

end ConfigUpdateEnvelope

end ChannelConfig
