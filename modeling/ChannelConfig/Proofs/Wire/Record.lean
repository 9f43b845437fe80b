import ChannelConfig.Wire.Record

/-! Records on the wire. Written numbers and records are prefix-free, so a written sequence of
records has one reading (`serialize_inj`), and `parse` finds it (`parse_serialize`) as long as
numbers and lengths fit 64 bits. -/

set_option autoImplicit false

namespace ChannelConfig.Wire

/-! ## Variable-length numbers -/

namespace Varint

theorem encode_of_lt {n : Nat} (h : n < 128) : encode n = [UInt8.ofNat n] := by
  rw [encode, if_pos h]

theorem encode_of_le {n : Nat} (h : 128 ≤ n) :
    encode n = UInt8.ofNat (n % 128 + 128) :: encode (n / 128) := by
  rw [encode, if_neg (by omega)]

theorem encode_ne_nil (n : Nat) : encode n ≠ [] := by
  rw [encode]
  split <;> simp

theorem toNat_ofNat_of_lt {n : Nat} (h : n < 256) : (UInt8.ofNat n).toNat = n := by
  rw [UInt8.toNat_ofNat']
  omega

/-- The numbers that so many digits hold, the last of ten being 0 or 1. -/
def capacity : (digits : Nat) → Nat
  | 0 => 0
  | 1 => 2
  | digits + 2 => 128 * capacity (digits + 1)

theorem capacity_ten : capacity 10 = UInt64.size := rfl

theorem div_lt_capacity {digits n : Nat} (h : n < capacity (digits + 1)) (hn : 128 ≤ n) :
    n / 128 < capacity digits := by
  cases digits with
  | zero =>
    have hbound : n < 2 := h
    omega
  | succ digits =>
    have hbound : n < 128 * capacity (digits + 1) := h
    omega

theorem read_encode {digits n : Nat} (h : n < capacity digits) (rest : Bytes) :
    read digits (encode n ++ rest) = .ok (n, rest) := by
  induction digits generalizing n with
  | zero => cases h
  | succ more ih =>
    by_cases hn : n < 128
    · have hbyte := toNat_ofNat_of_lt (show n < 256 by omega)
      have hsmall : UInt8.ofNat n < 128 := by
        rw [UInt8.lt_iff_toNat_lt, hbyte]
        exact hn
      have hlast : ¬ (more = 0 ∧ 1 < UInt8.ofNat n) := by
        rintro ⟨rfl, hone⟩
        rw [UInt8.lt_iff_toNat_lt, hbyte] at hone
        have hbound : n < 2 := h
        have : 1 < n := hone
        omega
      rw [encode_of_lt hn, List.singleton_append, read, if_pos hsmall, if_neg hlast, hbyte]
    · have hbyte := toNat_ofNat_of_lt (show n % 128 + 128 < 256 by omega)
      have hlarge : ¬ UInt8.ofNat (n % 128 + 128) < 128 := by
        rw [UInt8.lt_iff_toNat_lt, hbyte]
        show ¬ n % 128 + 128 < 128
        omega
      have hrest := div_lt_capacity h (show 128 ≤ n by omega)
      rw [encode_of_le (by omega), List.cons_append, read, if_neg hlarge, ih hrest, hbyte]
      simp only [Except.ok.injEq, Prod.mk.injEq, and_true]
      omega

theorem decode_encode {n : Nat} (h : n < UInt64.size) (rest : Bytes) :
    decode (encode n ++ rest) = .ok (n, rest) :=
  read_encode (Nat.lt_of_lt_of_eq h capacity_ten.symm) rest

/-- No written number is the beginning of another one. -/
theorem encode_append_inj {a b : Nat} {x y : Bytes} (h : encode a ++ x = encode b ++ y) :
    a = b ∧ x = y := by
  induction a using Nat.strongRecOn generalizing b with
  | ind a ih =>
    by_cases ha : a < 128 <;> by_cases hb : b < 128
    · rw [encode_of_lt ha, encode_of_lt hb, List.singleton_append, List.singleton_append,
        List.cons.injEq] at h
      have hbyte := congrArg UInt8.toNat h.1
      rw [toNat_ofNat_of_lt (by omega), toNat_ofNat_of_lt (by omega)] at hbyte
      exact ⟨hbyte, h.2⟩
    · rw [encode_of_lt ha, encode_of_le (by omega), List.singleton_append, List.cons_append,
        List.cons.injEq] at h
      have hbyte := congrArg UInt8.toNat h.1
      rw [toNat_ofNat_of_lt (by omega), toNat_ofNat_of_lt (by omega)] at hbyte
      omega
    · rw [encode_of_le (by omega), encode_of_lt hb, List.singleton_append, List.cons_append,
        List.cons.injEq] at h
      have hbyte := congrArg UInt8.toNat h.1
      rw [toNat_ofNat_of_lt (by omega), toNat_ofNat_of_lt (by omega)] at hbyte
      omega
    · rw [encode_of_le (show 128 ≤ a by omega), encode_of_le (show 128 ≤ b by omega),
        List.cons_append, List.cons_append, List.cons.injEq] at h
      have hbyte := congrArg UInt8.toNat h.1
      rw [toNat_ofNat_of_lt (by omega), toNat_ofNat_of_lt (by omega)] at hbyte
      obtain ⟨hdiv, hrest⟩ := ih (a / 128) (by omega) h.2
      exact ⟨by omega, hrest⟩

theorem length_encode_le_of_lt {digits n : Nat} (h : n < capacity digits) :
    (encode n).length ≤ digits := by
  induction digits generalizing n with
  | zero => cases h
  | succ digits ih =>
    by_cases hn : n < 128
    · rw [encode_of_lt hn]
      exact Nat.succ_le_succ (Nat.zero_le _)
    · have hrest : n / 128 < capacity digits := div_lt_capacity h (by omega)
      rw [encode_of_le (by omega)]
      exact Nat.succ_le_succ (ih hrest)

/-- Numbers of 64 bits have at most ten digits. -/
theorem length_encode_le {n : Nat} (h : n < UInt64.size) : (encode n).length ≤ 10 :=
  length_encode_le_of_lt (Nat.lt_of_lt_of_eq h capacity_ten.symm)

end Varint

/-! ## One record -/

/-- Field numbers have 29 bits and are not 0. -/
def IsFieldNumber (number : Nat) : Prop := 0 < number ∧ number < 536870912

instance (number : Nat) : Decidable (IsFieldNumber number) :=
  inferInstanceAs (Decidable (_ ∧ _))

@[simp] theorem isFieldNumber_iff {number : Nat} :
    IsFieldNumber number ↔ 0 < number ∧ number < 536870912 :=
  Iff.rfl

/-- A body that a field may have. Only delimited ones are entries of a map. -/
def Body.Sound (isEntry : Bool) : Body → Prop
  | .varint n => n < UInt64.size ∧ isEntry = false
  | .delimited _ => True
  | .foreign => False

/-- A body whose length fits 64 bits. -/
def Body.Short : Body → Prop
  | .delimited bytes => bytes.length < UInt64.size
  | _ => True

/-- What reading gives back. -/
structure Record.Readable (isEntry : Nat → Bool) (r : Record) : Prop where
  number : IsFieldNumber r.number
  sound : r.body.Sound (isEntry r.number)
  short : r.body.Short

theorem readKey_encode {number code : Nat} {wireType : WireType} (h : IsFieldNumber number)
    (hcode : code < 8) (htype : WireType.ofCode? code = some wireType) (rest : Bytes) :
    readKey (Varint.encode (8 * number + code) ++ rest) = .ok (⟨number, wireType⟩, rest) := by
  obtain ⟨hpos, hlt⟩ := h
  have hsize : 8 * number + code < UInt64.size := by
    simp only [UInt64.size]
    omega
  have hdiv : (8 * number + code) / 8 = number := by omega
  have hmod : (8 * number + code) % 8 = code := by omega
  have hkey : ¬ (UInt32.size ≤ 8 * number + code ∨ number = 0) := by
    simp only [UInt32.size]
    omega
  simp only [readKey, Varint.decode_encode hsize, hdiv, hmod, htype]
  rw [if_neg hkey]

theorem readDelimited_encode {bytes : Bytes} (h : bytes.length < UInt64.size) (rest : Bytes) :
    readDelimited (Varint.encode bytes.length ++ (bytes ++ rest)) = .ok (bytes, rest) := by
  simp [readDelimited, Varint.decode_encode h, cut]

/-- Reads one record off the front. -/
theorem parse_of_readBody {levels : Nat} {isEntry : Nat → Bool} {bs rest rest' : Bytes} {key : Key}
    {body : Body} (hkey : readKey bs = .ok (key, rest))
    (hbody : readBody levels isEntry key rest = .ok (body, rest')) :
    parse levels isEntry bs = (parse levels isEntry rest').map (⟨key.number, body⟩ :: ·) := by
  have hne : ¬ bs.isEmpty = true := by
    intro hnil
    have hlt := length_lt_of_readKey hkey
    rw [List.isEmpty_iff.1 hnil] at hlt
    cases hlt
  rw [parse, if_neg hne]
  split
  · next he =>
    rw [hkey] at he
    cases he
  · next he =>
    rw [hkey] at he
    cases he
    split
    · next hb =>
      rw [hbody] at hb
      cases hb
    · next hb =>
      rw [hbody] at hb
      cases hb
      rfl

theorem parse_encode_append {levels : Nat} {isEntry : Nat → Bool} {r : Record}
    (h : r.Readable isEntry) (rest : Bytes) :
    parse levels isEntry (r.encode ++ rest) = (parse levels isEntry rest).map (r :: ·) := by
  obtain ⟨number, body⟩ := r
  have hnumber : IsFieldNumber number := h.number
  cases body with
  | varint n =>
    obtain ⟨hn, hentry⟩ : n < UInt64.size ∧ isEntry number = false := h.sound
    have hkey := readKey_encode hnumber (show 0 < 8 by omega) rfl (Varint.encode n ++ rest)
    rw [Record.encode, List.append_assoc]
    refine parse_of_readBody hkey ?_
    simp [readBody, hentry, Varint.decode_encode hn, Except.map]
  | delimited bytes =>
    have hshort : bytes.length < UInt64.size := h.short
    have hkey := readKey_encode hnumber (show 2 < 8 by omega) rfl
      (Varint.encode bytes.length ++ (bytes ++ rest))
    rw [Record.encode, List.append_assoc, List.append_assoc]
    refine parse_of_readBody hkey ?_
    simp [readBody, readDelimited_encode hshort, Except.map]
  | foreign => exact h.sound.elim

/-- No written record is the beginning of another one. -/
theorem Record.encode_append_inj {r r' : Record} {x y : Bytes} (hr : r.body ≠ .foreign)
    (hr' : r'.body ≠ .foreign) (h : r.encode ++ x = r'.encode ++ y) : r = r' ∧ x = y := by
  obtain ⟨number, body⟩ := r
  obtain ⟨number', body'⟩ := r'
  cases body with
  | foreign => exact absurd rfl hr
  | varint m =>
    rw [Record.encode, List.append_assoc] at h
    cases body' with
    | foreign => exact absurd rfl hr'
    | varint n =>
      rw [Record.encode, List.append_assoc] at h
      obtain ⟨hkey, h⟩ := Varint.encode_append_inj h
      obtain ⟨rfl, rfl⟩ := Varint.encode_append_inj h
      obtain rfl : number = number' := by omega
      exact ⟨rfl, rfl⟩
    | delimited bs =>
      rw [Record.encode, List.append_assoc, List.append_assoc] at h
      have hkey := (Varint.encode_append_inj h).1
      omega
  | delimited bs =>
    rw [Record.encode, List.append_assoc, List.append_assoc] at h
    cases body' with
    | foreign => exact absurd rfl hr'
    | varint n =>
      rw [Record.encode, List.append_assoc] at h
      have hkey := (Varint.encode_append_inj h).1
      omega
    | delimited bs' =>
      rw [Record.encode, List.append_assoc, List.append_assoc] at h
      obtain ⟨hkey, h⟩ := Varint.encode_append_inj h
      obtain ⟨hlength, h⟩ := Varint.encode_append_inj h
      obtain ⟨rfl, rfl⟩ := List.append_inj h hlength
      obtain rfl : number = number' := by omega
      exact ⟨rfl, rfl⟩

theorem Record.encode_ne_nil {r : Record} (hr : r.body ≠ .foreign) : r.encode ≠ [] := by
  obtain ⟨number, body⟩ := r
  cases body with
  | varint n => simp [Record.encode, Varint.encode_ne_nil]
  | delimited bytes => simp [Record.encode, Varint.encode_ne_nil]
  | foreign => exact absurd rfl hr

theorem Record.length_encode_varint_le {number n : Nat} (hnumber : number < 16)
    (hn : n < UInt64.size) : (Record.encode ⟨number, .varint n⟩).length ≤ 11 := by
  have := Varint.length_encode_le hn
  rw [Record.encode, Varint.encode_of_lt (show 8 * number < 128 by omega), List.length_append,
    List.length_singleton]
  omega

theorem Record.length_encode_delimited_le {number : Nat} {bytes : Bytes} (hnumber : number < 16)
    (h : bytes.length < UInt64.size) :
    (Record.encode ⟨number, .delimited bytes⟩).length ≤ bytes.length + 11 := by
  have := Varint.length_encode_le h
  rw [Record.encode, Varint.encode_of_lt (show 8 * number + 2 < 128 by omega), List.length_append,
    List.length_append, List.length_singleton]
  omega

theorem Record.length_bytes_le (number : Nat) (bytes : Bytes) :
    bytes.length ≤ (Record.encode ⟨number, .delimited bytes⟩).length := by
  rw [Record.encode, List.length_append]
  exact Nat.le_add_left _ _

/-! ## Sequences of records -/

theorem parse_nil (levels : Nat) (isEntry : Nat → Bool) : parse levels isEntry [] = .ok [] := by
  rw [parse]
  rfl

theorem parse_serialize {levels : Nat} {isEntry : Nat → Bool} {records : List Record}
    (h : ∀ r ∈ records, r.Readable isEntry) :
    parse levels isEntry (serialize records) = .ok records := by
  induction records with
  | nil => exact parse_nil levels isEntry
  | cons r rs ih =>
    have hr := h r (List.mem_cons_self ..)
    have hrs := ih fun r' hr' => h r' (List.mem_cons_of_mem r hr')
    rw [serialize, List.flatMap_cons, parse_encode_append hr]
    rw [serialize] at hrs
    rw [hrs]
    rfl

theorem serialize_inj {records records' : List Record} (h : ∀ r ∈ records, r.body ≠ .foreign)
    (h' : ∀ r ∈ records', r.body ≠ .foreign) (he : serialize records = serialize records') :
    records = records' := by
  induction records generalizing records' with
  | nil =>
    cases records' with
    | nil => rfl
    | cons r' rs' =>
      have := Record.encode_ne_nil (h' r' (List.mem_cons_self ..))
      simp [serialize, this] at he
  | cons r rs ih =>
    have hr := h r (List.mem_cons_self ..)
    cases records' with
    | nil =>
      have := Record.encode_ne_nil hr
      simp [serialize, this] at he
    | cons r' rs' =>
      have hr' := h' r' (List.mem_cons_self ..)
      rw [serialize, serialize, List.flatMap_cons, List.flatMap_cons] at he
      obtain ⟨rfl, hrest⟩ := Record.encode_append_inj hr hr' he
      rw [ih (fun s hs => h s (List.mem_cons_of_mem r hs))
        (fun s hs => h' s (List.mem_cons_of_mem r hs)) hrest]

/-- Of two sequences that are written at the front of the same bytes one begins with the other. -/
theorem prefix_or_prefix_of_serialize_append {records records' : List Record} {x y : Bytes}
    (h : ∀ r ∈ records, r.body ≠ .foreign) (h' : ∀ r ∈ records', r.body ≠ .foreign)
    (he : serialize records ++ x = serialize records' ++ y) :
    records <+: records' ∨ records' <+: records := by
  induction records generalizing records' with
  | nil => exact .inl (List.nil_prefix)
  | cons r rs ih =>
    cases records' with
    | nil => exact .inr (List.nil_prefix)
    | cons r' rs' =>
      obtain ⟨hr, hrs⟩ := List.forall_mem_cons.1 h
      obtain ⟨hr', hrs'⟩ := List.forall_mem_cons.1 h'
      rw [serialize, serialize, List.flatMap_cons, List.flatMap_cons, List.append_assoc,
        List.append_assoc] at he
      obtain ⟨rfl, hrest⟩ := Record.encode_append_inj hr hr' he
      rw [List.prefix_cons_inj, List.prefix_cons_inj]
      exact ih hrs hrs' hrest

/-- Every record is at most as long as all of them together. -/
theorem length_encode_le_serialize {records : List Record} {r : Record} (hr : r ∈ records) :
    r.encode.length ≤ (serialize records).length := by
  obtain ⟨before, after, rfl⟩ := List.append_of_mem hr
  simp only [serialize, List.flatMap_append, List.flatMap_cons, List.length_append]
  omega

theorem short_of_length_serialize {records : List Record} {r : Record} (hr : r ∈ records)
    (h : (serialize records).length < UInt64.size) : r.body.Short := by
  obtain ⟨number, body⟩ := r
  cases body with
  | delimited bytes =>
    show bytes.length < UInt64.size
    have := Record.length_bytes_le number bytes
    have := length_encode_le_serialize hr
    omega
  | varint => exact trivial
  | foreign => exact trivial

end ChannelConfig.Wire
