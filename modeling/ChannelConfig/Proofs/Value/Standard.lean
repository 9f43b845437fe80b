import ChannelConfig.Proofs.Wire.Flat
import ChannelConfig.Value.Standard

/-! Well-known values read back under their own names. -/

set_option autoImplicit false

namespace ChannelConfig.StandardValue

open Wire

theorem map_decode_encode {M : Type} [Message M] [LawfulMessage M] {inner : Nat}
    [FlatMessage M inner] (f : M → StandardValue) {m : M} (hlevels : inner ≤ maxLevels)
    (hlength : (Wire.encode m).length < UInt64.size) :
    (Result.ofDecode (Wire.decode (Wire.encode m))).map f = .ok (f m) := by
  rw [decode_encode_of_flat hlevels hlength]
  rfl

theorem decode_encode (v : StandardValue) (hlength : v.encode.length < UInt64.size) :
    decode v.key v.encode = .ok v := by
  cases v <;> exact map_decode_encode _ (by decide) hlength

end ChannelConfig.StandardValue
