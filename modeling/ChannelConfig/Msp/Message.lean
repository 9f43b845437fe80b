import ChannelConfig.Wire.Format

/-!
# Membership on the wire

A membership service provider (MSP) says who belongs to an organization. Its configuration travels
encoded inside an `MspConfig`; for the X.509 kind that is a `FabricMspConfig`.
-/

set_option autoImplicit false

namespace ChannelConfig

open Wire

/-- An identity as the network sees it. -/
structure SerializedIdentity where
  mspId : String := ""
  idBytes : Bytes := []
  deriving DecidableEq, Repr

instance : Message SerializedIdentity where
  codec := .ofFields (.cons 1 .text <| .cons 2 .bytes .nil)
    (fun m => (m.mspId, m.idBytes, ()))
    (fun (mspId, idBytes, _) => { mspId, idBytes })

structure MspConfig where
  type : Int32 := 0
  config : Bytes := []
  deriving DecidableEq, Repr

instance : Message MspConfig where
  codec := .ofFields (.cons 1 .int32 <| .cons 2 .bytes .nil)
    (fun m => (m.type, m.config, ()))
    (fun (type, config, _) => { type, config })

structure KeyInfo where
  keyIdentifier : String := ""
  keyMaterial : Bytes := []
  deriving DecidableEq, Repr

instance : Message KeyInfo where
  codec := .ofFields (.cons 1 .text <| .cons 2 .bytes .nil)
    (fun m => (m.keyIdentifier, m.keyMaterial, ()))
    (fun (keyIdentifier, keyMaterial, _) => { keyIdentifier, keyMaterial })

structure SigningIdentityInfo where
  publicSigner : Bytes := []
  privateSigner : Option KeyInfo := none
  deriving DecidableEq, Repr

instance : Message SigningIdentityInfo where
  codec := .ofFields (.cons 1 .bytes <| .cons 2 (.optional (message KeyInfo)) .nil)
    (fun m => (m.publicSigner, m.privateSigner, ()))
    (fun (publicSigner, privateSigner, _) => { publicSigner, privateSigner })

structure FabricCryptoConfig where
  signatureHashFamily : String := ""
  identityIdentifierHashFunction : String := ""
  deriving DecidableEq, Repr

instance : Message FabricCryptoConfig where
  codec := .ofFields (.cons 1 .text <| .cons 2 .text .nil)
    (fun m => (m.signatureHashFamily, m.identityIdentifierHashFunction, ()))
    (fun (signatureHashFamily, identityIdentifierHashFunction, _) =>
      { signatureHashFamily, identityIdentifierHashFunction })

structure FabricOuIdentifier where
  certificate : Bytes := []
  organizationalUnitIdentifier : String := ""
  deriving DecidableEq, Repr

instance : Message FabricOuIdentifier where
  codec := .ofFields (.cons 1 .bytes <| .cons 2 .text .nil)
    (fun m => (m.certificate, m.organizationalUnitIdentifier, ()))
    (fun (certificate, organizationalUnitIdentifier, _) =>
      { certificate, organizationalUnitIdentifier })

structure FabricNodeOus where
  enable : Bool := false
  clientOuIdentifier : Option FabricOuIdentifier := none
  peerOuIdentifier : Option FabricOuIdentifier := none
  adminOuIdentifier : Option FabricOuIdentifier := none
  ordererOuIdentifier : Option FabricOuIdentifier := none
  deriving DecidableEq, Repr

instance : Message FabricNodeOus where
  codec := .ofFields
    (.cons 1 .bool <| .cons 2 (.optional (message FabricOuIdentifier)) <|
      .cons 3 (.optional (message FabricOuIdentifier)) <|
      .cons 4 (.optional (message FabricOuIdentifier)) <|
      .cons 5 (.optional (message FabricOuIdentifier)) .nil)
    (fun m => (m.enable, m.clientOuIdentifier, m.peerOuIdentifier, m.adminOuIdentifier,
      m.ordererOuIdentifier, ()))
    (fun (enable, clientOuIdentifier, peerOuIdentifier, adminOuIdentifier, ordererOuIdentifier, _) =>
      { enable, clientOuIdentifier, peerOuIdentifier, adminOuIdentifier, ordererOuIdentifier })

structure FabricMspConfig where
  name : String := ""
  rootCerts : List Bytes := []
  intermediateCerts : List Bytes := []
  admins : List Bytes := []
  revocationList : List Bytes := []
  signingIdentity : Option SigningIdentityInfo := none
  organizationalUnitIdentifiers : List FabricOuIdentifier := []
  cryptoConfig : Option FabricCryptoConfig := none
  tlsRootCerts : List Bytes := []
  tlsIntermediateCerts : List Bytes := []
  fabricNodeOus : Option FabricNodeOus := none
  deriving DecidableEq, Repr

instance : Message FabricMspConfig where
  codec := .ofFields
    (.cons 1 .text <| .cons 2 (.repeated .bytes) <| .cons 3 (.repeated .bytes) <|
      .cons 4 (.repeated .bytes) <| .cons 5 (.repeated .bytes) <|
      .cons 6 (.optional (message SigningIdentityInfo)) <|
      .cons 7 (.repeated (message FabricOuIdentifier)) <|
      .cons 8 (.optional (message FabricCryptoConfig)) <| .cons 9 (.repeated .bytes) <|
      .cons 10 (.repeated .bytes) <| .cons 11 (.optional (message FabricNodeOus)) .nil)
    (fun m => (m.name, m.rootCerts, m.intermediateCerts, m.admins, m.revocationList,
      m.signingIdentity, m.organizationalUnitIdentifiers, m.cryptoConfig, m.tlsRootCerts,
      m.tlsIntermediateCerts, m.fabricNodeOus, ()))
    (fun (name, rootCerts, intermediateCerts, admins, revocationList, signingIdentity,
        organizationalUnitIdentifiers, cryptoConfig, tlsRootCerts, tlsIntermediateCerts,
        fabricNodeOus, _) =>
      { name, rootCerts, intermediateCerts, admins, revocationList, signingIdentity,
        organizationalUnitIdentifiers, cryptoConfig, tlsRootCerts, tlsIntermediateCerts,
        fabricNodeOus })

end ChannelConfig
