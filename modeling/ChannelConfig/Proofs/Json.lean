import ChannelConfig.Json
import ChannelConfig.Proofs.NameMap

/-! JSON values by their members. Numbers and bytes can be read off what is shown of them. -/

set_option autoImplicit false

namespace ChannelConfig

/-! ## Hexadecimal -/

namespace Bytes

theorem hexDigit_inj {m n : Nat} (hm : m < 16) (hn : n < 16) (h : hexDigit m = hexDigit n) :
    m = n := by
  have hall : ∀ i j : Fin 16, hexDigit i = hexDigit j → i = j := by decide +kernel
  exact congrArg Fin.val (hall ⟨m, hm⟩ ⟨n, hn⟩ h)

/-- No two byte strings have the same digits. -/
theorem toHex_inj {bs cs : Bytes} : bs.toHex = cs.toHex ↔ bs = cs := by
  refine ⟨fun h => ?_, congrArg toHex⟩
  rw [toHex, toHex, String.ofList_inj] at h
  induction bs generalizing cs with
  | nil =>
    cases cs with
    | nil => rfl
    | cons c cs => cases h
  | cons b bs ih =>
    cases cs with
    | nil => cases h
    | cons c cs =>
      simp only [List.flatMap_cons, List.cons_append, List.nil_append, List.cons.injEq] at h
      obtain ⟨hhigh, hlow, hrest⟩ := h
      have hb := b.toNat_lt
      have hc := c.toNat_lt
      have hhigh := hexDigit_inj (by omega) (by omega) hhigh
      have hlow := hexDigit_inj (Nat.mod_lt _ (by decide)) (Nat.mod_lt _ (by decide)) hlow
      rw [UInt8.toNat_inj.1 (by omega : b.toNat = c.toNat), ih hrest]

end Bytes

namespace Json

theorem nat_inj {m n : Nat} : nat m = nat n ↔ m = n := by
  rw [nat, nat, int.injEq, Int.natCast_inj]

theorem hex_inj {bs cs : Bytes} : hex bs = hex cs ↔ bs = cs := by
  rw [hex, hex, str.injEq, Bytes.toHex_inj]

/-- A number of 64 bits is fixed by the value that shows it. -/
theorem uint64_eq {shown : Option Json} {m n : UInt64} (hm : shown = some (nat m.toNat))
    (hn : shown = some (nat n.toNat)) : m = n :=
  UInt64.toNat_inj.1 (nat_inj.1 (Option.some.inj (hm.symm.trans hn)))

theorem str_eq {shown : Option Json} {s t : String} (hs : shown = some (str s))
    (ht : shown = some (str t)) : s = t :=
  str.inj (Option.some.inj (hs.symm.trans ht))

/-! ## Members -/

/-- The member of an object under a name. -/
def member? (j : Json) (name : String) : Option Json :=
  match j with
  | .obj members => members.find? name
  | _ => none

theorem member?_object (members : List (String × Json)) (name : String) :
    (object members).member? name = members.reverse.lookup name :=
  SortedFrom.find?_ofList members name

end Json

end ChannelConfig
