import ChannelConfig.Wire.Format

/-!
# Blocks

A block carries encoded transactions and, beside them, one metadata slot for each purpose.
-/

set_option autoImplicit false

namespace ChannelConfig

open Wire

structure BlockHeader where
  number : UInt64 := 0
  previousHash : Bytes := []
  dataHash : Bytes := []
  deriving DecidableEq, Repr

instance : Message BlockHeader where
  codec := .ofFields (.cons 1 .uint64 <| .cons 2 .bytes <| .cons 3 .bytes .nil)
    (fun m => (m.number, m.previousHash, m.dataHash, ()))
    (fun (number, previousHash, dataHash, _) => { number, previousHash, dataHash })

structure BlockData where
  transactions : List Bytes := []
  deriving DecidableEq, Repr

instance : Message BlockData where
  codec := .ofFields (.cons 1 (.repeated .bytes) .nil)
    (fun m => (m.transactions, ()))
    (fun (transactions, _) => { transactions })

structure BlockMetadata where
  slots : List Bytes := []
  deriving DecidableEq, Repr

instance : Message BlockMetadata where
  codec := .ofFields (.cons 1 (.repeated .bytes) .nil)
    (fun m => (m.slots, ()))
    (fun (slots, _) => { slots })

structure Block where
  header : Option BlockHeader := none
  data : Option BlockData := none
  metadata : Option BlockMetadata := none
  deriving DecidableEq, Repr

instance : Message Block where
  codec := .ofFields
    (.cons 1 (.optional (message BlockHeader)) <| .cons 2 (.optional (message BlockData)) <|
      .cons 3 (.optional (message BlockMetadata)) .nil)
    (fun m => (m.header, m.data, m.metadata, ()))
    (fun (header, data, metadata, _) => { header, data, metadata })

/-! ## Metadata slots -/

structure MetadataSignature where
  signatureHeader : Bytes := []
  signature : Bytes := []
  deriving DecidableEq, Repr

instance : Message MetadataSignature where
  codec := .ofFields (.cons 1 .bytes <| .cons 2 .bytes .nil)
    (fun m => (m.signatureHeader, m.signature, ()))
    (fun (signatureHeader, signature, _) => { signatureHeader, signature })

structure Metadata where
  value : Bytes := []
  signatures : List MetadataSignature := []
  deriving DecidableEq, Repr

instance : Message Metadata where
  codec := .ofFields (.cons 1 .bytes <| .cons 2 (.repeated (message MetadataSignature)) .nil)
    (fun m => (m.value, m.signatures, ()))
    (fun (value, signatures, _) => { value, signatures })

/-- The number of the last block that holds a configuration. -/
structure LastConfig where
  index : UInt64 := 0
  deriving DecidableEq, Repr

instance : Message LastConfig where
  codec := .ofFields (.cons 1 .uint64 .nil)
    (fun m => (m.index, ()))
    (fun (index, _) => { index })

structure OrdererBlockMetadata where
  lastConfig : Option LastConfig := none
  consenterMetadata : Bytes := []
  deriving DecidableEq, Repr

instance : Message OrdererBlockMetadata where
  codec := .ofFields (.cons 1 (.optional (message LastConfig)) <| .cons 2 .bytes .nil)
    (fun m => (m.lastConfig, m.consenterMetadata, ()))
    (fun (lastConfig, consenterMetadata, _) => { lastConfig, consenterMetadata })

end ChannelConfig
