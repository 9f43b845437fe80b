import ChannelConfig.Proofs.Wire.Depth

/-! How many bytes are written for what was read. What a record is read from is never shorter than
what the record is written as, for a number read from more digits than it needs is written with
fewer, and what nothing asks for is not written at all. Only the values in the records may grow,
and by no more than twice (`BoundedGrowth`). -/

set_option autoImplicit false

namespace ChannelConfig.Wire

/-! ## Lengths of numbers -/

namespace Varint

theorem length_encode_pos (n : Nat) : 0 < (encode n).length :=
  List.length_pos_iff.2 (encode_ne_nil n)

theorem length_encode_of_lt {n : Nat} (h : n < 128) : (encode n).length = 1 := by
  rw [encode_of_lt h, List.length_singleton]

theorem length_encode_of_le {n : Nat} (h : 128 ≤ n) :
    (encode n).length = (encode (n / 128)).length + 1 := by
  rw [encode_of_le h, List.length_cons]

theorem length_encode_mono {m n : Nat} (h : m ≤ n) : (encode m).length ≤ (encode n).length := by
  induction n using Nat.strongRecOn generalizing m with
  | ind n ih =>
    by_cases hm : m < 128
    · have hpos := length_encode_pos n
      rw [length_encode_of_lt hm]
      omega
    · have hrest := ih (n / 128) (by omega) (Nat.div_le_div_right h)
      rw [length_encode_of_le (by omega), length_encode_of_le (show 128 ≤ n by omega)]
      omega

theorem length_encode_double (n : Nat) : (encode (2 * n + 1)).length ≤ (encode n).length + 1 := by
  induction n using Nat.strongRecOn with
  | ind n ih =>
    by_cases hn : n < 128
    · have hmono := length_encode_mono (show 2 * n + 1 ≤ 255 by omega)
      have htwo : (encode 255).length = 2 := by
        rw [length_encode_of_le (by omega), length_encode_of_lt (by omega)]
      rw [length_encode_of_lt hn]
      omega
    · have hmono := length_encode_mono (show (2 * n + 1) / 128 ≤ 2 * (n / 128) + 1 by omega)
      have hrest := ih (n / 128) (by omega)
      rw [length_encode_of_le (by omega), length_encode_of_le (show 128 ≤ n by omega)]
      omega

theorem length_encode_add_le (m n : Nat) :
    (encode (m + n)).length ≤ (encode m).length + (encode n).length := by
  have hsum : (encode (m + n)).length ≤ (encode (max m n)).length + 1 :=
    Nat.le_trans (length_encode_mono (by omega)) (length_encode_double (max m n))
  have hm := length_encode_pos m
  have hn := length_encode_pos n
  rcases Nat.le_total m n with h | h
  · rw [Nat.max_eq_right h] at hsum
    omega
  · rw [Nat.max_eq_left h] at hsum
    omega

theorem length_encode_add_two_mul_le (m n : Nat) :
    (encode (m + 2 * n)).length ≤ (encode m).length + 2 * (encode n).length := by
  have hadd := length_encode_add_le m (2 * n)
  have hmono := length_encode_mono (show 2 * n ≤ 2 * n + 1 by omega)
  have hdouble := length_encode_double n
  have hn := length_encode_pos n
  omega

theorem length_encode_le_of_read {digits n : Nat} {bs rest : Bytes}
    (h : read digits bs = .ok (n, rest)) : (encode n).length + rest.length ≤ bs.length := by
  induction digits generalizing bs n with
  | zero => cases h
  | succ more ih =>
    cases bs with
    | nil => cases h
    | cons b bs =>
      rw [read] at h
      split at h
      · next hb =>
        split at h
        · cases h
        · cases h
          have hlt : b.toNat < 128 := UInt8.lt_iff_toNat_lt.1 hb
          rw [length_encode_of_lt hlt, List.length_cons]
          omega
      · next hb =>
        split at h
        · next m rest' hm =>
          cases h
          have hrest := ih hm
          have hbyte : b.toNat < 256 := b.toNat_lt
          have hdigit : (b.toNat - 128 + 128 * m) / 128 = m := by omega
          rw [List.length_cons]
          by_cases hsmall : b.toNat - 128 + 128 * m < 128
          · rw [length_encode_of_lt hsmall]
            have := length_encode_pos m
            omega
          · rw [length_encode_of_le (by omega), hdigit]
            omega
        · cases h

theorem length_encode_le_of_decode {n : Nat} {bs rest : Bytes} (h : decode bs = .ok (n, rest)) :
    (encode n).length + rest.length ≤ bs.length :=
  length_encode_le_of_read h

/-- The low three bits make no difference. -/
theorem length_encode_key {number code : Nat} (h : code < 8) :
    (encode (8 * number + code)).length = (encode (8 * number)).length := by
  by_cases hsmall : number < 16
  · rw [length_encode_of_lt (by omega), length_encode_of_lt (by omega)]
  · have hdiv : (8 * number + code) / 128 = 8 * number / 128 := by omega
    rw [length_encode_of_le (by omega), length_encode_of_le (show 128 ≤ 8 * number by omega), hdiv]

end Varint

/-! ## Lengths of records -/

theorem length_le_of_readKey {bs rest : Bytes} {key : Key} (h : readKey bs = .ok (key, rest)) :
    (Varint.encode (8 * key.number)).length + rest.length ≤ bs.length := by
  unfold readKey at h
  split at h
  · cases h
  · next code rest' hcode =>
    have hlength := Varint.length_encode_le_of_decode hcode
    split at h
    · cases h
    · split at h
      · cases h
        have hmono := Varint.length_encode_mono (show 8 * (code / 8) ≤ code by omega)
        show (Varint.encode (8 * (code / 8))).length + rest.length ≤ bs.length
        omega
      · cases h

theorem length_of_cut {n : Nat} {bs taken rest : Bytes} (h : cut n bs = .ok (taken, rest)) :
    taken.length = n ∧ taken.length + rest.length = bs.length := by
  unfold cut at h
  split at h
  · next hn =>
    cases h
    refine ⟨hn, ?_⟩
    rw [← List.length_append, List.take_append_drop]
  · cases h

theorem length_le_of_readDelimited {bs taken rest : Bytes}
    (h : readDelimited bs = .ok (taken, rest)) :
    (Varint.encode taken.length).length + taken.length + rest.length ≤ bs.length := by
  unfold readDelimited at h
  split at h
  · cases h
  · next n rest' hn =>
    obtain ⟨rfl, hcut⟩ := length_of_cut h
    have hlength := Varint.length_encode_le_of_decode hn
    omega

theorem length_encode_delimited (number : Nat) (bytes : Bytes) :
    (Record.encode ⟨number, .delimited bytes⟩).length =
      (Varint.encode (8 * number)).length + (Varint.encode bytes.length).length + bytes.length := by
  rw [Record.encode, List.length_append, List.length_append, Varint.length_encode_key (by omega)]

theorem length_encode_varint (number n : Nat) :
    (Record.encode ⟨number, .varint n⟩).length =
      (Varint.encode (8 * number)).length + (Varint.encode n).length := by
  rw [Record.encode, List.length_append]

theorem length_le_of_delimited {key : Key} {bs rest : Bytes} {body : Body}
    (h : ((readDelimited bs).map fun (bytes, rest) => (Body.delimited bytes, rest)) =
      .ok (body, rest)) :
    (Record.encode ⟨key.number, body⟩).length + rest.length ≤
      (Varint.encode (8 * key.number)).length + bs.length := by
  obtain ⟨⟨taken, rest'⟩, htaken, h⟩ := exists_of_map_eq_ok h
  cases h
  have hlength := length_le_of_readDelimited htaken
  rw [length_encode_delimited]
  omega

/-- The record that is read is written with no more bytes than it was read from. -/
theorem length_encode_le_of_readBody {levels : Nat} {isEntry : Nat → Bool} {key : Key}
    {bs rest : Bytes} {body : Body} (h : readBody levels isEntry key bs = .ok (body, rest)) :
    (Record.encode ⟨key.number, body⟩).length + rest.length ≤
      (Varint.encode (8 * key.number)).length + bs.length := by
  have hrest := length_le_of_readBody h
  have hforeign : body = .foreign → (Record.encode ⟨key.number, body⟩).length + rest.length ≤
      (Varint.encode (8 * key.number)).length + bs.length := by
    rintro rfl
    rw [Record.encode, List.length_nil]
    omega
  unfold readBody at h
  split at h
  · exact length_le_of_delimited h
  · split at h
    · obtain ⟨⟨n, rest'⟩, hn, h⟩ := exists_of_map_eq_ok h
      cases h
      have hlength := Varint.length_encode_le_of_decode hn
      rw [length_encode_varint]
      omega
    · exact length_le_of_delimited h
    · obtain ⟨_, _, h⟩ := exists_of_map_eq_ok h
      cases h
      exact hforeign rfl
    · obtain ⟨_, _, h⟩ := exists_of_map_eq_ok h
      cases h
      exact hforeign rfl
    · obtain ⟨_, _, h⟩ := exists_of_map_eq_ok h
      cases h
      exact hforeign rfl
    · cases h

/-- The records that are read are written with no more bytes than they were read from. -/
theorem length_serialize_le_of_parse {levels : Nat} {isEntry : Nat → Bool} {bs : Bytes}
    {records : List Record} (h : parse levels isEntry bs = .ok records) :
    (serialize records).length ≤ bs.length := by
  fun_induction parse levels isEntry bs generalizing records with
  | case1 bs hnil =>
    cases h
    exact Nat.zero_le _
  | case2 => cases h
  | case3 => cases h
  | case4 bs hne key rest hkey body rest' hbody hlt ih =>
    obtain ⟨others, hothers, rfl⟩ := exists_of_map_eq_ok h
    have hfirst := length_encode_le_of_readBody hbody
    have hnumber := length_le_of_readKey hkey
    have hrest := ih hothers
    rw [serialize] at hrest ⊢
    rw [List.flatMap_cons, List.length_append]
    omega

/-! ## Growth

What is read is written with at most twice the bytes it was read from: only a negative 32-bit number
takes more bytes than it was read from, ten where there were at least five. -/

section

variable {number : Nat} {before after bytes : Bytes}

theorem length_delimited_le_of_add (h : after.length ≤ before.length + 2 * bytes.length) :
    (Record.encode ⟨number, .delimited after⟩).length ≤
      (Record.encode ⟨number, .delimited before⟩).length +
        2 * (Record.encode ⟨number, .delimited bytes⟩).length := by
  have hmono := Varint.length_encode_mono h
  have hsum := Varint.length_encode_add_two_mul_le before.length bytes.length
  rw [length_encode_delimited, length_encode_delimited, length_encode_delimited]
  omega

theorem length_delimited_le_of_double (h : after.length ≤ 2 * bytes.length) :
    (Record.encode ⟨number, .delimited after⟩).length ≤
      2 * (Record.encode ⟨number, .delimited bytes⟩).length := by
  have hmono := Varint.length_encode_mono (show after.length ≤ 2 * bytes.length + 1 by omega)
  have hdouble := Varint.length_encode_double bytes.length
  have hpos := Varint.length_encode_pos bytes.length
  rw [length_encode_delimited, length_encode_delimited]
  omega

end

variable {T : Type}

/-- Reading on top of a value adds at most twice the bytes that are read. -/
def Content.BoundedGrowth (c : Content T) (levels : Nat) : Prop :=
  ∀ t bs t', c.merge levels t bs = .ok t' →
    (c.toBytes t').length ≤ (c.toBytes t).length + 2 * bs.length

def Field.BoundedGrowth (f : Field T) (levels : Nat) : Prop :=
  ∀ number t body t', f.absorb levels t body = .ok t' →
    (f.encodeAt number t').length ≤
      (f.encodeAt number t).length + 2 * (Record.encode ⟨number, body⟩).length

/-- Each field grows by at most twice what it reads. -/
@[simp] def Fields.BoundedGrowth (levels : Nat) : {Ts : Type} → Fields Ts → Prop
  | _, .nil => True
  | _, .cons _ field rest => field.BoundedGrowth levels ∧ rest.BoundedGrowth levels

theorem length_le_of_foldlM {A : Type} {size : A → Nat} {step : A → Record → Except DecodeError A}
    (hstep : ∀ a r a', step a r = .ok a' → size a' ≤ size a + 2 * r.encode.length)
    {records : List Record} {a a' : A} (h : records.foldlM step a = .ok a') :
    size a' ≤ size a + 2 * (serialize records).length := by
  induction records generalizing a with
  | nil =>
    cases h
    exact Nat.le_add_right _ _
  | cons r records ih =>
    rw [List.foldlM_cons] at h
    obtain ⟨next, hnext, h⟩ := exists_of_bind_eq_ok h
    have hfirst := hstep a r next hnext
    have hrest := ih h
    rw [serialize] at hrest ⊢
    rw [List.flatMap_cons, List.length_append]
    omega

namespace Fields

theorem length_le_of_absorb {levels : Nat} {r : Record} : {Ts : Type} → {fields : Fields Ts} →
    fields.BoundedGrowth levels → {ts ts' : Ts} → fields.absorb levels ts r = .ok ts' →
    (fields.encode ts').length ≤ (fields.encode ts).length + 2 * r.encode.length
  | _, .nil, _, _, _, _ => Nat.zero_le _
  | _, .cons number field rest, h, (t, ts), ts', hread => by
    obtain ⟨hfield, hrest⟩ := h
    rw [absorb] at hread
    split at hread
    · next hnumber =>
      subst hnumber
      obtain ⟨t', ht', rfl⟩ := exists_of_map_eq_ok hread
      have hgrowth : (field.encodeAt r.number t').length ≤
          (field.encodeAt r.number t).length + 2 * r.encode.length :=
        hfield r.number t r.body t' ht'
      rw [encode_cons, encode_cons, List.length_append, List.length_append]
      omega
    · obtain ⟨ts', hts', rfl⟩ := exists_of_map_eq_ok hread
      have hgrowth := length_le_of_absorb hrest hts'
      rw [encode_cons, encode_cons, List.length_append, List.length_append]
      omega

theorem length_le_of_merge {Ts : Type} {fields : Fields Ts} {levels : Nat}
    (h : fields.BoundedGrowth levels) {ts ts' : Ts} {bs : Bytes}
    (hread : fields.merge levels ts bs = .ok ts') :
    (fields.encode ts').length ≤ (fields.encode ts).length + 2 * bs.length := by
  rw [merge] at hread
  split at hread
  · cases hread
  · next records hrecords =>
    have hparsed := length_serialize_le_of_parse hrecords
    have hfold := length_le_of_foldlM (fun _ _ _ => length_le_of_absorb h) hread
    omega

end Fields

/-! ### Fields -/

namespace Content

theorem boundedGrowth_bytes (levels : Nat) : Content.bytes.BoundedGrowth levels := by
  intro t bs t' h
  cases h
  show bs.length ≤ t.length + 2 * bs.length
  omega

theorem boundedGrowth_text (levels : Nat) : Content.text.BoundedGrowth levels := by
  intro t bs t' h
  simp only [text] at h
  split at h
  · next s hs =>
    cases h
    show (Bytes.ofText t').length ≤ (Bytes.ofText t).length + 2 * bs.length
    rw [Bytes.ofText_of_text? hs]
    omega
  · cases h

end Content

namespace Field

variable {c : Content T} {levels : Nat}

theorem length_encodeAt_single (c : Content T) (number : Nat) (t : T) :
    ((single c).encodeAt number t).length =
      if c.toBytes t = [] then 0 else (Record.encode ⟨number, .delimited (c.toBytes t)⟩).length := by
  rw [encodeAt, bodies_single]
  split
  · rfl
  · rw [List.map_singleton, serialize, List.flatMap_singleton]

theorem encodeAt_some (c : Content T) (number : Nat) (t : T) :
    (optional c).encodeAt number (some t) = Record.encode ⟨number, .delimited (c.toBytes t)⟩ :=
  List.flatMap_singleton ..

theorem boundedGrowth_number {toNat : T → Nat} {ofNat : Nat → T}
    (h : ∀ n, (Varint.encode (toNat (ofNat n))).length ≤ 2 * (Varint.encode n).length) :
    (number toNat ofNat).BoundedGrowth levels := by
  intro number t body t' hread
  cases body with
  | delimited bs => cases hread
  | foreign => cases hread
  | varint n =>
    cases hread
    have hlength := h n
    have hbodies : (Field.number toNat ofNat).bodies (ofNat n) =
        if toNat (ofNat n) = 0 then [] else [.varint (toNat (ofNat n))] := rfl
    rw [encodeAt, hbodies]
    split
    · exact Nat.zero_le _
    · rw [List.map_singleton, serialize, List.flatMap_singleton, length_encode_varint,
        length_encode_varint]
      omega

/-- Cutting a number makes it no longer. -/
theorem boundedGrowth_number_of_le {toNat : T → Nat} {ofNat : Nat → T}
    (h : ∀ n, toNat (ofNat n) ≤ n) : (number toNat ofNat).BoundedGrowth levels := by
  refine boundedGrowth_number fun n => ?_
  have := Varint.length_encode_mono (h n)
  omega

@[simp] theorem boundedGrowth_uint64 : uint64.BoundedGrowth levels :=
  boundedGrowth_number_of_le fun n => by
    rw [UInt64.toNat_ofNat']
    exact Nat.mod_le ..

@[simp] theorem boundedGrowth_uint32 : uint32.BoundedGrowth levels :=
  boundedGrowth_number_of_le fun n => by
    rw [UInt32.toNat_ofNat']
    exact Nat.mod_le ..

@[simp] theorem boundedGrowth_int64 : int64.BoundedGrowth levels :=
  boundedGrowth_number_of_le fun n => by
    show (UInt64.ofNat n).toNat ≤ n
    rw [UInt64.toNat_ofNat']
    exact Nat.mod_le ..

@[simp] theorem boundedGrowth_bool : bool.BoundedGrowth levels := by
  refine boundedGrowth_number fun n => ?_
  have hpos := Varint.length_encode_pos n
  have hbit : (Varint.encode (Bool.toNat (n ≠ 0))).length = 1 :=
    Varint.length_encode_of_lt (Nat.lt_of_lt_of_le (Bool.toNat_lt _) (by omega))
  omega

/-- A negative number is written in ten digits, and has at least five where it is read. -/
theorem length_encode_int32_le (n : Nat) :
    (Varint.encode (Int32.ofNat n).toInt64.toUInt64.toNat).length ≤ 2 * (Varint.encode n).length := by
  have hbits : (Int32.ofNat n).toInt64.toUInt64.toNat =
      ((BitVec.ofNat 32 n).signExtend 64).toNat := by
    rw [← Int32.toBitVec_ofNat', ← Int32.toBitVec_toInt64]
    rfl
  rw [hbits, BitVec.toNat_signExtend]
  cases hmsb : (BitVec.ofNat 32 n).msb with
  | false =>
    have hle : ((BitVec.ofNat 32 n).setWidth 64).toNat ≤ n := by
      rw [BitVec.toNat_setWidth, BitVec.toNat_ofNat]
      exact Nat.le_trans (Nat.mod_le ..) (Nat.mod_le ..)
    have hmono := Varint.length_encode_mono hle
    rw [if_neg Bool.false_ne_true, Nat.add_zero]
    omega
  | true =>
    have hlarge : 268435456 ≤ n := by
      rw [BitVec.msb_eq_decide, decide_eq_true_eq, BitVec.toNat_ofNat] at hmsb
      have := Nat.mod_le n (2 ^ 32)
      omega
    have hmono := Varint.length_encode_mono hlarge
    have hfive : (Varint.encode 268435456).length = 5 := by
      rw [Varint.length_encode_of_le (by omega), Varint.length_encode_of_le (by omega),
        Varint.length_encode_of_le (by omega), Varint.length_encode_of_le (by omega),
        Varint.length_encode_of_lt (by omega)]
    have hten := Varint.length_encode_le ((BitVec.ofNat 32 n).signExtend 64).isLt
    rw [BitVec.toNat_signExtend, hmsb] at hten
    omega

@[simp] theorem boundedGrowth_int32 : int32.BoundedGrowth levels :=
  boundedGrowth_number length_encode_int32_le

theorem boundedGrowth_single (h : c.BoundedGrowth levels) : (single c).BoundedGrowth levels := by
  intro number t body t' hread
  cases body with
  | varint n => cases hread
  | foreign => cases hread
  | delimited bs =>
    have hmerge := h t bs t' hread
    rw [length_encodeAt_single, length_encodeAt_single]
    split
    · exact Nat.zero_le _
    · split
      · next hnil =>
        rw [hnil, List.length_nil, Nat.zero_add] at hmerge
        rw [Nat.zero_add]
        exact length_delimited_le_of_double hmerge
      · exact length_delimited_le_of_add hmerge

@[simp] theorem boundedGrowth_bytes : bytes.BoundedGrowth levels :=
  boundedGrowth_single (Content.boundedGrowth_bytes levels)

@[simp] theorem boundedGrowth_text : text.BoundedGrowth levels :=
  boundedGrowth_single (Content.boundedGrowth_text levels)

theorem boundedGrowth_optional (hempty : c.toBytes c.empty = []) (h : c.BoundedGrowth levels) :
    (optional c).BoundedGrowth levels := by
  intro number t body t' hread
  cases body with
  | varint n => cases hread
  | foreign => cases hread
  | delimited bs =>
    obtain ⟨a, ha, rfl⟩ := exists_of_map_eq_ok hread
    have hmerge := h (t.getD c.empty) bs a ha
    rw [encodeAt_some]
    cases t with
    | none =>
      rw [Option.getD_none, hempty, List.length_nil, Nat.zero_add] at hmerge
      exact Nat.le_trans (length_delimited_le_of_double hmerge) (Nat.le_add_left _ _)
    | some b =>
      rw [encodeAt_some]
      exact length_delimited_le_of_add hmerge

theorem boundedGrowth_repeated (hempty : c.toBytes c.empty = []) (h : c.BoundedGrowth levels) :
    (repeated c).BoundedGrowth levels := by
  intro number ts body ts' hread
  cases body with
  | varint n => cases hread
  | foreign => cases hread
  | delimited bs =>
    obtain ⟨a, ha, rfl⟩ := exists_of_map_eq_ok hread
    have hmerge := h c.empty bs a ha
    rw [hempty, List.length_nil, Nat.zero_add] at hmerge
    have happend : (repeated c).encodeAt number (ts ++ [a]) =
        (repeated c).encodeAt number ts ++ Record.encode ⟨number, .delimited (c.toBytes a)⟩ := by
      simp [encodeAt, repeated, serialize]
    rw [happend, List.length_append]
    exact Nat.add_le_add_left (length_delimited_le_of_double hmerge) _

@[simp] theorem boundedGrowth_repeated_bytes : (repeated .bytes).BoundedGrowth levels :=
  boundedGrowth_repeated rfl (Content.boundedGrowth_bytes levels)

@[simp] theorem boundedGrowth_repeated_text : (repeated .text).BoundedGrowth levels :=
  boundedGrowth_repeated Content.lawful_text.toBytes_empty (Content.boundedGrowth_text levels)

/-- A map is written entry by entry. -/
theorem encodeAt_map (c : Content T) (number : Nat) (m : NameMap T) :
    (map c).encodeAt number m = m.toList.flatMap fun e =>
      Record.encode ⟨number, .delimited ((entry c).encode (e.1, e.2, ()))⟩ := by
  simp [encodeAt, map, serialize, List.flatMap_map]

theorem boundedGrowth_map (hempty : c.toBytes c.empty = [])
    (h : ∀ left, levels = left + 1 → c.BoundedGrowth left) : (map c).BoundedGrowth levels := by
  intro number m body m' hread
  cases body with
  | varint n => cases hread
  | foreign => cases hread
  | delimited bs =>
    cases levels with
    | zero => cases hread
    | succ left =>
      obtain ⟨⟨name, v, _⟩, hmerge, rfl⟩ := exists_of_map_eq_ok hread
      have hentry : (entry c).BoundedGrowth left :=
        ⟨boundedGrowth_text, boundedGrowth_single (h left rfl), trivial⟩
      have hgrowth := Fields.length_le_of_merge hentry hmerge
      rw [Fields.encode_empty (wellFormed_entry hempty), List.length_nil, Nat.zero_add] at hgrowth
      have hinsert := SortedFrom.length_flatMap_insert_le m name v fun e =>
        Record.encode ⟨number, .delimited ((entry c).encode (e.1, e.2, ()))⟩
      rw [encodeAt_map, encodeAt_map]
      exact Nat.le_trans hinsert
        (Nat.add_le_add_left (length_delimited_le_of_double hgrowth) _)

@[simp] theorem boundedGrowth_map_bytes : (map .bytes).BoundedGrowth levels :=
  boundedGrowth_map rfl fun left _ => Content.boundedGrowth_bytes left

end Field

/-! ### Messages -/

def Codec.BoundedGrowth {M : Type} (c : Codec M) (levels : Nat) : Prop :=
  ∀ m bs m', c.merge levels m bs = .ok m' →
    (c.encode m').length ≤ (c.encode m).length + 2 * bs.length

theorem Codec.boundedGrowth_content {M : Type} {c : Codec M} {levels : Nat}
    (h : ∀ left, levels = left + 1 → c.BoundedGrowth left) : c.content.BoundedGrowth levels := by
  intro m bs m' hread
  cases levels with
  | zero => cases hread
  | succ left => exact h left rfl m bs m' hread

/-- A message that is written with at most twice the bytes it was read from. -/
class ConciseMessage (M : Type) [Message M] : Prop where
  boundedGrowth : ∀ levels, (Message.codec (M := M)).BoundedGrowth levels

section

variable {M : Type} [Message M]

/-- A message given by its fields is as concise as they are. -/
theorem ConciseMessage.ofFields {Ts : Type} {fields : Fields Ts} {toTuple : M → Ts}
    {ofTuple : Ts → M} (hcodec : Message.codec = Codec.ofFields fields toTuple ofTuple)
    (hto : ∀ ts, toTuple (ofTuple ts) = ts) (hfields : ∀ levels, fields.BoundedGrowth levels) :
    ConciseMessage M := by
  refine ⟨fun levels m bs m' hread => ?_⟩
  rw [hcodec] at hread ⊢
  obtain ⟨ts, hts, rfl⟩ := exists_of_map_eq_ok hread
  show (fields.encode (toTuple (ofTuple ts))).length ≤ _
  rw [hto]
  exact Fields.length_le_of_merge (hfields levels) hts

variable [ConciseMessage M] {levels : Nat}

theorem boundedGrowth_message : (message M).BoundedGrowth levels :=
  Codec.boundedGrowth_content fun left _ => ConciseMessage.boundedGrowth left

variable [LawfulMessage M]

@[simp] theorem Field.boundedGrowth_optional_message :
    (Field.optional (message M)).BoundedGrowth levels :=
  boundedGrowth_optional LawfulMessage.encode_empty boundedGrowth_message

@[simp] theorem Field.boundedGrowth_repeated_message :
    (Field.repeated (message M)).BoundedGrowth levels :=
  boundedGrowth_repeated LawfulMessage.encode_empty boundedGrowth_message

@[simp] theorem Field.boundedGrowth_map_message :
    (Field.map (message M)).BoundedGrowth levels :=
  boundedGrowth_map LawfulMessage.encode_empty fun _ _ => boundedGrowth_message

theorem length_encode_le_of_decode {bs : Bytes} {m : M} (h : decode bs = .ok m) :
    (encode m).length ≤ 2 * bs.length := by
  have hgrowth := ConciseMessage.boundedGrowth maxLevels _ bs m h
  rw [LawfulMessage.encode_empty, List.length_nil, Nat.zero_add] at hgrowth
  exact hgrowth

end

end ChannelConfig.Wire
