import ChannelConfig.Wire.Format

/-!
# Envelopes

A transaction travels as an `Envelope`: an encoded `Payload` and a signature over it. The payload
carries data under two encoded headers, one for the channel and one for the sender.
-/

set_option autoImplicit false

namespace ChannelConfig

open Wire

structure Envelope where
  payload : Bytes := []
  signature : Bytes := []
  deriving DecidableEq, Repr

instance : Message Envelope where
  codec := .ofFields (.cons 1 .bytes <| .cons 2 .bytes .nil)
    (fun m => (m.payload, m.signature, ()))
    (fun (payload, signature, _) => { payload, signature })

structure Header where
  channelHeader : Bytes := []
  signatureHeader : Bytes := []
  deriving DecidableEq, Repr

instance : Message Header where
  codec := .ofFields (.cons 1 .bytes <| .cons 2 .bytes .nil)
    (fun m => (m.channelHeader, m.signatureHeader, ()))
    (fun (channelHeader, signatureHeader, _) => { channelHeader, signatureHeader })

structure Payload where
  header : Option Header := none
  data : Bytes := []
  deriving DecidableEq, Repr

instance : Message Payload where
  codec := .ofFields (.cons 1 (.optional (message Header)) <| .cons 2 .bytes .nil)
    (fun m => (m.header, m.data, ()))
    (fun (header, data, _) => { header, data })

structure Timestamp where
  seconds : Int64 := 0
  nanos : Int32 := 0
  deriving DecidableEq, Repr

instance : Message Timestamp where
  codec := .ofFields (.cons 1 .int64 <| .cons 2 .int32 .nil)
    (fun m => (m.seconds, m.nanos, ()))
    (fun (seconds, nanos, _) => { seconds, nanos })

structure ChannelHeader where
  type : Int32 := 0
  version : Int32 := 0
  timestamp : Option Timestamp := none
  channelId : String := ""
  txId : String := ""
  epoch : UInt64 := 0
  extension : Bytes := []
  tlsCertHash : Bytes := []
  deriving DecidableEq, Repr

instance : Message ChannelHeader where
  codec := .ofFields
    (.cons 1 .int32 <| .cons 2 .int32 <| .cons 3 (.optional (message Timestamp)) <|
      .cons 4 .text <| .cons 5 .text <| .cons 6 .uint64 <| .cons 7 .bytes <| .cons 8 .bytes .nil)
    (fun m => (m.type, m.version, m.timestamp, m.channelId, m.txId, m.epoch, m.extension,
      m.tlsCertHash, ()))
    (fun (type, version, timestamp, channelId, txId, epoch, extension, tlsCertHash, _) =>
      { type, version, timestamp, channelId, txId, epoch, extension, tlsCertHash })

structure SignatureHeader where
  creator : Bytes := []
  nonce : Bytes := []
  deriving DecidableEq, Repr

instance : Message SignatureHeader where
  codec := .ofFields (.cons 1 .bytes <| .cons 2 .bytes .nil)
    (fun m => (m.creator, m.nonce, ()))
    (fun (creator, nonce, _) => { creator, nonce })

end ChannelConfig
