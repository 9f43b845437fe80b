import ChannelConfig.Msp.Material
import ChannelConfig.Proofs.Wire.Flat

/-! Material in an MSP configuration. `FabricMspConfig.Shows` says, list by list, what a configuration
shows of an organization, and no configuration shows two (`FabricMspConfig.Shows.unique`);
`verifyingMsp` encodes one that shows all of it, so nothing of the material is lost. -/

set_option autoImplicit false

namespace ChannelConfig

open Wire

structure FabricOuIdentifier.Shows (f : FabricOuIdentifier) (ou : OuIdentifier) : Prop where
  certificate : f.certificate = ou.certificate
  unit : f.organizationalUnitIdentifier = ou.unit

/-- Each kind of node has a unit exactly if it is given one. -/
structure FabricNodeOus.Shows (f : FabricNodeOus) (ous : NodeOus) : Prop where
  enable : f.enable = ous.enable
  client : Option.Rel FabricOuIdentifier.Shows f.clientOuIdentifier ous.client
  peer : Option.Rel FabricOuIdentifier.Shows f.peerOuIdentifier ous.peer
  admin : Option.Rel FabricOuIdentifier.Shows f.adminOuIdentifier ous.admin
  orderer : Option.Rel FabricOuIdentifier.Shows f.ordererOuIdentifier ous.orderer

structure FabricMspConfig.Shows (f : FabricMspConfig) (mspId : String) (m : Material) : Prop where
  name : f.name = mspId
  rootCerts : f.rootCerts = m.rootCerts
  intermediateCerts : f.intermediateCerts = m.intermediateCerts
  admins : f.admins = m.adminCerts
  revocationList : f.revocationList = m.revocationList
  tlsRootCerts : f.tlsRootCerts = m.tlsRootCerts
  tlsIntermediateCerts : f.tlsIntermediateCerts = m.tlsIntermediateCerts
  signingIdentity : f.signingIdentity = none
  nodeOus : Option.Rel FabricNodeOus.Shows f.fabricNodeOus m.nodeOus

/-- The configuration reads as one that shows the material, and it is of the X.509 kind. -/
structure MspConfig.Carries (msp : MspConfig) (mspId : String) (m : Material) : Prop where
  type : msp.type = 0
  config : msp.config.length < UInt64.size →
    ∃ f : FabricMspConfig, decode msp.config = .ok f ∧ f.Shows mspId m

/-! ## A configuration shows one material -/

theorem rel_unique {A B : Type} {R : B → A → Prop} {b : Option B} {a a' : Option A}
    (ha : Option.Rel R b a) (ha' : Option.Rel R b a') (h : ∀ b a a', R b a → R b a' → a = a') :
    a = a' := by
  cases rel_of_rel ha ha' h with
  | none => rfl
  | some heq => exact congrArg some heq

theorem FabricOuIdentifier.Shows.unique {f : FabricOuIdentifier} {ou ou' : OuIdentifier}
    (h : f.Shows ou) (h' : f.Shows ou') : ou = ou' := by
  cases ou
  cases ou'
  rw [OuIdentifier.mk.injEq]
  exact ⟨h.certificate.symm.trans h'.certificate, h.unit.symm.trans h'.unit⟩

theorem FabricNodeOus.Shows.unique {f : FabricNodeOus} {ous ous' : NodeOus}
    (h : f.Shows ous) (h' : f.Shows ous') : ous = ous' := by
  have hunit : ∀ {g : Option FabricOuIdentifier} {ou ou' : Option OuIdentifier},
      Option.Rel FabricOuIdentifier.Shows g ou → Option.Rel FabricOuIdentifier.Shows g ou' →
        ou = ou' :=
    fun hou hou' => rel_unique hou hou' fun _ _ _ => FabricOuIdentifier.Shows.unique
  cases ous
  cases ous'
  rw [NodeOus.mk.injEq]
  exact ⟨h.enable.symm.trans h'.enable, hunit h.client h'.client, hunit h.peer h'.peer,
    hunit h.admin h'.admin, hunit h.orderer h'.orderer⟩

theorem FabricMspConfig.Shows.unique {f : FabricMspConfig} {mspId mspId' : String}
    {m m' : Material} (h : f.Shows mspId m) (h' : f.Shows mspId' m') : mspId = mspId' ∧ m = m' := by
  refine ⟨h.name.symm.trans h'.name, ?_⟩
  cases m
  cases m'
  rw [Material.mk.injEq]
  exact ⟨h.rootCerts.symm.trans h'.rootCerts,
    h.intermediateCerts.symm.trans h'.intermediateCerts, h.admins.symm.trans h'.admins,
    h.revocationList.symm.trans h'.revocationList, h.tlsRootCerts.symm.trans h'.tlsRootCerts,
    h.tlsIntermediateCerts.symm.trans h'.tlsIntermediateCerts,
    rel_unique h.nodeOus h'.nodeOus fun _ _ _ => FabricNodeOus.Shows.unique⟩

/-! ## The configuration that is encoded -/

theorem OuIdentifier.shows_toMessage (ou : OuIdentifier) : ou.toMessage.Shows ou := ⟨rfl, rfl⟩

theorem NodeOus.shows_toMessage (ous : NodeOus) : ous.toMessage.Shows ous :=
  ⟨rfl, rel_map OuIdentifier.shows_toMessage _, rel_map OuIdentifier.shows_toMessage _,
    rel_map OuIdentifier.shows_toMessage _, rel_map OuIdentifier.shows_toMessage _⟩

section

variable {mspId mspId' : String} {m m' : Material} {msp : MspConfig}

theorem exists_of_verifyingMsp (h : verifyingMsp mspId m = .ok msp) :
    msp.type = 0 ∧ ∃ f : FabricMspConfig, msp.config = encode f ∧ f.Shows mspId m := by
  rw [verifyingMsp] at h
  split at h
  · cases h
  · cases h
    refine ⟨rfl, _, rfl, ?_⟩
    exact ⟨rfl, rfl, rfl, rfl, rfl, rfl, rfl, rfl, rel_map NodeOus.shows_toMessage _⟩

theorem carries_of_verifyingMsp (h : verifyingMsp mspId m = .ok msp) : msp.Carries mspId m := by
  obtain ⟨htype, f, hconfig, hshows⟩ := exists_of_verifyingMsp h
  refine ⟨htype, fun hlength => ⟨f, ?_, hshows⟩⟩
  rw [hconfig] at hlength ⊢
  exact decode_encode_of_flat (by decide) hlength

/-- No two organizations have the same configuration, however long their material is. -/
theorem eq_of_verifyingMsp (h : verifyingMsp mspId m = .ok msp)
    (h' : verifyingMsp mspId' m' = .ok msp) : mspId = mspId' ∧ m = m' := by
  obtain ⟨-, f, hconfig, hshows⟩ := exists_of_verifyingMsp h
  obtain ⟨-, f', hconfig', hshows'⟩ := exists_of_verifyingMsp h'
  have hf : f = f' := encode_inj.1 (hconfig.symm.trans hconfig')
  exact hshows.unique (hf ▸ hshows')

theorem verifyingMsp_of_ne_nil (h : m.rootCerts ≠ []) :
    ∃ msp, verifyingMsp mspId m = .ok msp := by
  rw [verifyingMsp, List.isEmpty_eq_false_iff.2 h]
  exact ⟨_, rfl⟩

theorem verifyingMsp_of_eq_nil (h : m.rootCerts = []) :
    verifyingMsp mspId m = .invalid (.noRootCerts mspId) := by
  rw [verifyingMsp, h]
  rfl

end

/-- With root certificates there is a configuration. It reads as the identifier and all of the
material, every list as it stands and every part of the node units that is there, and it belongs to
no other identifier and no other material. Without them there is none. -/
theorem verifyingMsp_carries_material (mspId : String) (m : Material) :
    (m.rootCerts ≠ [] → ∃ msp, verifyingMsp mspId m = .ok msp ∧ msp.Carries mspId m) ∧
    (m.rootCerts = [] →
      verifyingMsp mspId m = .error (.validation [] (.noRootCerts mspId))) ∧
    ∀ (mspId' : String) (m' : Material) (msp : MspConfig), verifyingMsp mspId m = .ok msp →
      verifyingMsp mspId' m' = .ok msp → mspId' = mspId ∧ m' = m := by
  refine ⟨fun hroots => ?_, verifyingMsp_of_eq_nil, fun mspId' m' msp h h' => ?_⟩
  · obtain ⟨msp, hmsp⟩ : ∃ msp, verifyingMsp mspId m = .ok msp := verifyingMsp_of_ne_nil hroots
    exact ⟨msp, hmsp, carries_of_verifyingMsp hmsp⟩
  · exact eq_of_verifyingMsp h' h

/-- Certificates that repeat or are empty, and node units with nothing in them. -/
def sparseMaterial : Material where
  rootCerts := [[], [1], [], [1]]
  revocationList := [[]]
  nodeOus := some { peer := some {}, orderer := some { unit := "orderer" } }

theorem verifyingMsp_carries_material_sparse :
    (sparseMaterial.rootCerts ≠ [] ∧ ∃ msp, verifyingMsp "Org1MSP" sparseMaterial = .ok msp ∧
      (∃ f : FabricMspConfig, decode msp.config = .ok f ∧ f.Shows "Org1MSP" sparseMaterial) ∧
      ∀ mspId m, verifyingMsp mspId m = .ok msp → mspId = "Org1MSP" ∧ m = sparseMaterial) ∧
    verifyingMsp "Org1MSP" {} = .error (.validation [] (.noRootCerts "Org1MSP")) := by
  have hroots : sparseMaterial.rootCerts ≠ [] := by decide
  have hshort : (verifyingMsp "Org1MSP" sparseMaterial).toOption.all
      (fun msp => msp.config.length < UInt64.size) = true := by decide +kernel
  obtain ⟨hcarries, -, honly⟩ := verifyingMsp_carries_material "Org1MSP" sparseMaterial
  obtain ⟨msp, hmsp, hmsp_carries⟩ := hcarries hroots
  rw [hmsp] at hshort
  refine ⟨⟨hroots, msp, hmsp, hmsp_carries.config (of_decide_eq_true hshort), fun mspId m h => ?_⟩, ?_⟩
  · exact honly mspId m msp hmsp h
  · exact (verifyingMsp_carries_material "Org1MSP" {}).2.1 rfl

end ChannelConfig
