import ChannelConfig.Tree.Group
import ChannelConfig.Ledger.Envelope

/-!
# Configurations and updates

A configuration is a numbered tree. An update holds the versions that its author saw (the read set)
and the entries to write (the write set); signatures of the update travel beside it.
-/

set_option autoImplicit false

namespace ChannelConfig

open Wire

structure Config where
  sequence : UInt64 := 0
  channelGroup : Option Group := none
  deriving DecidableEq

instance : Message Config where
  codec := .ofFields (.cons 1 .uint64 <| .cons 2 (.optional (message Group)) .nil)
    (fun m => (m.sequence, m.channelGroup, ()))
    (fun (sequence, channelGroup, _) => { sequence, channelGroup })

structure ConfigEnvelope where
  config : Option Config := none
  lastUpdate : Option Envelope := none
  deriving DecidableEq

instance : Message ConfigEnvelope where
  codec := .ofFields
    (.cons 1 (.optional (message Config)) <| .cons 2 (.optional (message Envelope)) .nil)
    (fun m => (m.config, m.lastUpdate, ()))
    (fun (config, lastUpdate, _) => { config, lastUpdate })

structure ConfigUpdate where
  channelId : String := ""
  readSet : Option Group := none
  writeSet : Option Group := none
  isolatedData : NameMap Bytes := .nil
  deriving DecidableEq

instance : Message ConfigUpdate where
  codec := .ofFields
    (.cons 1 .text <| .cons 2 (.optional (message Group)) <|
      .cons 3 (.optional (message Group)) <| .cons 5 (.map .bytes) .nil)
    (fun m => (m.channelId, m.readSet, m.writeSet, m.isolatedData, ()))
    (fun (channelId, readSet, writeSet, isolatedData, _) =>
      { channelId, readSet, writeSet, isolatedData })

structure ConfigSignature where
  signatureHeader : Bytes := []
  signature : Bytes := []
  deriving DecidableEq, Repr

instance : Message ConfigSignature where
  codec := .ofFields (.cons 1 .bytes <| .cons 2 .bytes .nil)
    (fun m => (m.signatureHeader, m.signature, ()))
    (fun (signatureHeader, signature, _) => { signatureHeader, signature })

structure ConfigUpdateEnvelope where
  configUpdate : Bytes := []
  signatures : List ConfigSignature := []
  deriving DecidableEq, Repr

instance : Message ConfigUpdateEnvelope where
  codec := .ofFields (.cons 1 .bytes <| .cons 2 (.repeated (message ConfigSignature)) .nil)
    (fun m => (m.configUpdate, m.signatures, ()))
    (fun (configUpdate, signatures, _) => { configUpdate, signatures })

end ChannelConfig
