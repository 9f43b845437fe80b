import ChannelConfig.Proofs.NameMap
import ChannelConfig.Proofs.Wire.Record
import ChannelConfig.Wire.Format

/-! Fields that read back what they write.

* `Content.ReadsBack c t`: reading the bytes of `t` gives `t` if enough levels are left for its
  nesting and fails as too deep otherwise; no other value has the same bytes.
* `Field.ReadsBack f t`: the same of the bodies of a field, read one after the other.

Both speak of one value, so that the content of a recursive message can be shown to read back value
by value. A `Lawful` content or field reads back every value. -/

set_option autoImplicit false

namespace ChannelConfig.Wire

/-! ## Running out of levels -/

section
variable {T U : Type}

/-- A value that takes `n` levels, if so many are left. -/
def within (levels n : Nat) (t : T) : Except DecodeError T :=
  if n ≤ levels then .ok t else .error .tooDeep

theorem within_zero (levels : Nat) (t : T) : within levels 0 t = .ok t := if_pos (Nat.zero_le _)

theorem within_of_le {levels n : Nat} (h : n ≤ levels) (t : T) : within levels n t = .ok t :=
  if_pos h

theorem within_of_lt {levels n : Nat} (h : levels < n) (t : T) :
    within levels n t = .error .tooDeep :=
  if_neg (Nat.not_le.2 h)

theorem within_zero_succ (n : Nat) (t : T) : within 0 (n + 1) t = .error .tooDeep :=
  within_of_lt (Nat.succ_pos n) t

theorem within_succ (levels n : Nat) (t : T) :
    within (levels + 1) (n + 1) t = within levels n t := by
  simp only [within, Nat.add_le_add_iff_right]

theorem map_within (levels n : Nat) (t : T) (f : T → U) :
    (within levels n t).map f = within levels n (f t) := by
  simp only [within]
  split <;> rfl

/-- Two values one after the other take as many levels as the deeper one. -/
theorem within_bind {levels m n : Nat} (t : T) (u : U) {f : T → Except DecodeError U}
    (h : f t = within levels n u) : (within levels m t >>= f) = within levels (max m n) u := by
  by_cases hm : m ≤ levels
  · have hmax : max m n ≤ levels ↔ n ≤ levels := by omega
    rw [within_of_le hm]
    show f t = _
    rw [h]
    simp only [within, hmax]
  · rw [within_of_lt (by omega), within_of_lt (by omega)]
    rfl

end

/-! ## Content -/

variable {T : Type}

structure Content.ReadsBack (c : Content T) (t : T) : Prop where
  merge : (c.toBytes t).length < UInt64.size →
    ∀ levels, c.merge levels c.empty (c.toBytes t) = within levels (c.nesting t) t
  injective : ∀ t', c.toBytes t = c.toBytes t' → t = t'

structure Content.Lawful (c : Content T) : Prop where
  toBytes_empty : c.toBytes c.empty = []
  readsBack : ∀ t, c.ReadsBack t

namespace Content

theorem lawful_bytes : Content.bytes.Lawful where
  toBytes_empty := rfl
  readsBack _ := ⟨fun _ _ => rfl, fun _ h => h⟩

theorem lawful_text : Content.text.Lawful where
  toBytes_empty := by decide
  readsBack s := by
    refine ⟨fun _ levels => ?_, fun s' h => ?_⟩
    · simp only [text, Bytes.text?_ofText]
      exact (within_zero levels s).symm
    · have := congrArg Bytes.text? h
      simp only [text, Bytes.text?_ofText, Option.some.injEq] at this
      exact this

end Content

/-! ## One field -/

/-- A list is determined by its images if each element is by its own. -/
theorem eq_of_map_eq {A B : Type} {f : A → B} : {as as' : List A} →
    (∀ a ∈ as, ∀ a', f a = f a' → a = a') → as.map f = as'.map f → as = as'
  | [], [], _, _ => rfl
  | [], _ :: _, _, h => by cases h
  | _ :: _, [], _, h => by cases h
  | a :: as, a' :: as', hinj, h => by
    rw [List.map_cons, List.map_cons, List.cons.injEq] at h
    rw [hinj a (List.mem_cons_self ..) a' h.1,
      eq_of_map_eq (fun b hb => hinj b (List.mem_cons_of_mem a hb)) h.2]

structure Field.ReadsBack (f : Field T) (t : T) : Prop where
  absorb : (∀ body ∈ f.bodies t, body.Short) →
    ∀ levels, (f.bodies t).foldlM (f.absorb levels) f.empty = within levels (f.nesting t) t
  injective : ∀ t', f.bodies t = f.bodies t' → t = t'

/-- What holds of a field whatever its content does. -/
structure Field.Sound (f : Field T) : Prop where
  bodies_empty : f.bodies f.empty = []
  bodies : ∀ t, ∀ body ∈ f.bodies t, body.Sound f.isMap

structure Field.Lawful (f : Field T) : Prop where
  sound : f.Sound
  readsBack : ∀ t, f.ReadsBack t

namespace Field

/-! ### Numbers -/

theorem lawful_number {toNat : T → Nat} {ofNat : Nat → T} (hinv : ∀ t, ofNat (toNat t) = t)
    (hzero : toNat (ofNat 0) = 0) (hlt : ∀ t, toNat t < UInt64.size) :
    (number toNat ofNat).Lawful where
  sound := by
    refine ⟨if_pos hzero, fun t body hbody => ?_⟩
    simp only [number] at hbody
    split at hbody
    · cases hbody
    · rw [List.mem_singleton.1 hbody]
      exact ⟨hlt t, rfl⟩
  readsBack t := by
    constructor
    · intro _ levels
      show List.foldlM _ _ (if toNat t = 0 then [] else [Body.varint (toNat t)]) = within levels 0 t
      rw [within_zero]
      split
      · next h =>
        have ht := hinv t
        rw [h] at ht
        show Except.ok (ofNat 0) = _
        rw [ht]
      · show Except.ok (ofNat (toNat t)) = _
        rw [hinv]
    · intro t' h
      have heq : toNat t = toNat t' := by
        simp only [number] at h
        split at h <;> split at h
        · omega
        · cases h
        · cases h
        · simpa using h
      rw [← hinv t, ← hinv t', heq]

@[simp] theorem lawful_uint64 : uint64.Lawful :=
  lawful_number (fun _ => UInt64.ofNat_toNat) rfl UInt64.toNat_lt_size

@[simp] theorem lawful_uint32 : uint32.Lawful := by
  refine lawful_number (fun _ => UInt32.ofNat_toNat) rfl fun t => ?_
  have := t.toNat_lt_size
  simp only [UInt32.size, UInt64.size] at this ⊢
  omega

@[simp] theorem lawful_int64 : int64.Lawful := by
  refine lawful_number (fun t => ?_) rfl fun t => t.toUInt64.toNat_lt_size
  apply Int64.toBitVec_inj.1
  simp

/-- The low 32 bits of the 64-bit complement of a 32-bit number are its own. -/
theorem ofNat_complement (t : Int32) : Int32.ofNat t.toInt64.toUInt64.toNat = t := by
  apply Int32.toBitVec_inj.1
  rw [Int32.toBitVec_ofNat', ← Int64.toNat_toBitVec, Int32.toBitVec_toInt64, BitVec.ofNat_toNat]
  apply BitVec.eq_of_getLsbD_eq
  intro i hi
  have hi' : i < 64 := by omega
  rw [BitVec.getLsbD_setWidth, BitVec.getLsbD_signExtend]
  simp only [hi, hi', decide_true, Bool.true_and, if_true]

@[simp] theorem lawful_int32 : int32.Lawful :=
  lawful_number ofNat_complement rfl fun t => t.toInt64.toUInt64.toNat_lt_size

@[simp] theorem lawful_bool : bool.Lawful := by
  refine lawful_number (fun t => ?_) rfl fun t => ?_
  · cases t <;> rfl
  · cases t <;> decide

/-! ### A single value -/

theorem bodies_single (c : Content T) (t : T) :
    (single c).bodies t = if c.toBytes t = [] then [] else [.delimited (c.toBytes t)] := by
  simp only [single]
  split
  · next h => rw [if_pos h]
  · next h => rw [if_neg h]

theorem sound_single {c : Content T} (h : c.toBytes c.empty = []) : (single c).Sound where
  bodies_empty := by
    rw [bodies_single]
    exact if_pos h
  bodies t body hbody := by
    rw [bodies_single] at hbody
    split at hbody
    · cases hbody
    · rw [List.mem_singleton.1 hbody]
      exact trivial

theorem readsBack_single {c : Content T} (hempty : c.toBytes c.empty = []) {t : T}
    (h : c.ReadsBack t) : (single c).ReadsBack t := by
  constructor
  · intro hshort levels
    have hnesting : (single c).nesting t = if c.toBytes t = [] then 0 else c.nesting t := rfl
    rw [bodies_single] at hshort ⊢
    rw [hnesting]
    by_cases hnil : c.toBytes t = []
    · rw [if_pos hnil, if_pos hnil, within_zero, h.injective c.empty (hnil.trans hempty.symm)]
      rfl
    · rw [if_neg hnil] at hshort
      rw [if_neg hnil, if_neg hnil, ← h.merge (hshort _ (List.mem_singleton_self _)) levels]
      exact bind_pure _
  · intro t' hbodies
    rw [bodies_single, bodies_single] at hbodies
    refine h.injective t' ?_
    split at hbodies <;> split at hbodies
    · next h h' => rw [h, h']
    · cases hbodies
    · cases hbodies
    · simpa using hbodies

/-! ### A value that may be absent -/

theorem sound_optional (c : Content T) : (optional c).Sound where
  bodies_empty := rfl
  bodies t body hbody := by
    cases t with
    | none => cases hbody
    | some t =>
      rw [List.mem_singleton.1 hbody]
      exact trivial

theorem readsBack_optional {c : Content T} {t : Option T} (h : ∀ a, t = some a → c.ReadsBack a) :
    (optional c).ReadsBack t := by
  constructor
  · intro hshort levels
    cases t with
    | none => rfl
    | some a =>
      have hmerge := (h a rfl).merge (hshort _ (List.mem_singleton_self _)) levels
      show ((c.merge levels c.empty (c.toBytes a)).map some >>= pure) =
        within levels (c.nesting a) _
      rw [bind_pure, hmerge, map_within]
  · intro t' hbodies
    cases t with
    | none =>
      cases t' with
      | none => rfl
      | some b => cases hbodies
    | some a =>
      cases t' with
      | none => cases hbodies
      | some b =>
        simp only [optional, Option.map_some, Option.toList_some, List.cons.injEq,
          Body.delimited.injEq, and_true] at hbodies
        rw [(h a rfl).injective b hbodies]

/-! ### A list -/

theorem sound_repeated (c : Content T) : (repeated c).Sound where
  bodies_empty := rfl
  bodies ts body hbody := by
    obtain ⟨t, -, rfl⟩ := List.mem_map.1 hbody
    exact trivial

theorem foldlM_absorb_repeated {c : Content T} (levels : Nat) {ts : List T}
    (h : ∀ t ∈ ts, c.ReadsBack t) (hshort : ∀ body ∈ (repeated c).bodies ts, body.Short)
    (acc : List T) : ((repeated c).bodies ts).foldlM ((repeated c).absorb levels) acc =
      within levels ((repeated c).nesting ts) (acc ++ ts) := by
  induction ts generalizing acc with
  | nil =>
    rw [List.append_nil]
    rfl
  | cons t ts ih =>
    have hmerge := (h t (List.mem_cons_self ..)).merge (hshort _ (List.mem_cons_self ..)) levels
    have hrest := ih (fun t' ht' => h t' (List.mem_cons_of_mem t ht'))
      (fun body hbody => hshort body (List.mem_cons_of_mem _ hbody)) (acc ++ [t])
    rw [List.append_assoc, List.singleton_append] at hrest
    show ((c.merge levels c.empty (c.toBytes t)).map (fun t => acc ++ [t]) >>= _) = _
    rw [hmerge, map_within]
    exact within_bind _ _ hrest

theorem readsBack_repeated {c : Content T} {ts : List T} (h : ∀ t ∈ ts, c.ReadsBack t) :
    (repeated c).ReadsBack ts := by
  constructor
  · intro hshort levels
    exact foldlM_absorb_repeated levels h hshort []
  · intro ts' hbodies
    exact eq_of_map_eq (fun t ht t' htt => (h t ht).injective t' (Body.delimited.inj htt)) hbodies

/-! ### Lawful content -/

variable {c : Content T}

theorem lawful_single (h : c.Lawful) : (single c).Lawful :=
  ⟨sound_single h.toBytes_empty, fun t => readsBack_single h.toBytes_empty (h.readsBack t)⟩

theorem lawful_optional (h : c.Lawful) : (optional c).Lawful :=
  ⟨sound_optional c, fun _ => readsBack_optional fun a _ => h.readsBack a⟩

theorem lawful_repeated (h : c.Lawful) : (repeated c).Lawful :=
  ⟨sound_repeated c, fun _ => readsBack_repeated fun t _ => h.readsBack t⟩

@[simp] theorem lawful_bytes : bytes.Lawful := lawful_single Content.lawful_bytes

@[simp] theorem lawful_text : text.Lawful := lawful_single Content.lawful_text

theorem nesting_text (s : String) : text.nesting s = 0 := by
  show (if Content.text.toBytes s = [] then 0 else 0) = 0
  split <;> rfl

theorem nesting_bytes (bs : Bytes) : bytes.nesting bs = 0 := by
  show (if bs = [] then 0 else 0) = 0
  split <;> rfl

@[simp] theorem lawful_repeated_bytes : (repeated .bytes).Lawful :=
  lawful_repeated Content.lawful_bytes

@[simp] theorem lawful_repeated_text : (repeated .text).Lawful :=
  lawful_repeated Content.lawful_text

/-! ### Lengths -/

/-- The bytes of a field under its number. -/
def encodeAt (number : Nat) (field : Field T) (t : T) : Bytes :=
  serialize ((field.bodies t).map (Record.mk number))

variable {number : Nat}

theorem length_int32_le (hnumber : number < 16) (t : Int32) :
    (int32.encodeAt number t).length ≤ 11 := by
  have hbodies : int32.bodies t =
      if t.toInt64.toUInt64.toNat = 0 then [] else [.varint t.toInt64.toUInt64.toNat] := rfl
  rw [encodeAt, hbodies]
  split
  · exact Nat.zero_le _
  · rw [List.map_singleton, serialize, List.flatMap_singleton]
    exact Record.length_encode_varint_le hnumber (UInt64.toNat_lt_size _)

theorem length_single_le (hnumber : number < 16) {t : T}
    (h : (c.toBytes t).length < UInt64.size) :
    ((single c).encodeAt number t).length ≤ (c.toBytes t).length + 11 := by
  rw [encodeAt, bodies_single]
  split
  · exact Nat.zero_le _
  · rw [List.map_singleton, serialize, List.flatMap_singleton]
    exact Record.length_encode_delimited_le hnumber h

theorem length_some_le (hnumber : number < 16) {t : T}
    (h : (c.toBytes t).length < UInt64.size) :
    ((optional c).encodeAt number (some t)).length ≤ (c.toBytes t).length + 11 := by
  show (serialize [⟨number, .delimited (c.toBytes t)⟩]).length ≤ _
  rw [serialize, List.flatMap_singleton]
  exact Record.length_encode_delimited_le hnumber h

theorem length_repeated_le (hnumber : number < 16) {ts : List T}
    (h : (ts.flatMap c.toBytes).length < UInt64.size) :
    ((repeated c).encodeAt number ts).length ≤
      (ts.flatMap c.toBytes).length + 11 * ts.length := by
  induction ts with
  | nil => exact Nat.le_refl 0
  | cons t ts ih =>
    rw [List.flatMap_cons, List.length_append] at h ⊢
    have ht := @Record.length_encode_delimited_le number (c.toBytes t) hnumber (by omega)
    have hts := ih (by omega)
    show (Record.encode ⟨number, .delimited (c.toBytes t)⟩ ++
      (repeated c).encodeAt number ts).length ≤ _
    rw [List.length_append, List.length_cons]
    omega

/-- Each body of a field is in its bytes. -/
theorem length_le_encodeAt {f : Field T} {t : T} {bytes : Bytes} (number : Nat)
    (h : .delimited bytes ∈ f.bodies t) : bytes.length ≤ (f.encodeAt number t).length :=
  Nat.le_trans (Record.length_bytes_le number bytes)
    (length_encode_le_serialize (List.mem_map_of_mem h))

theorem length_toBytes_le_single (number : Nat) (c : Content T) (t : T) :
    (c.toBytes t).length ≤ ((single c).encodeAt number t).length := by
  by_cases hnil : c.toBytes t = []
  · rw [hnil]
    exact Nat.zero_le _
  · refine length_le_encodeAt number ?_
    rw [bodies_single, if_neg hnil]
    exact List.mem_singleton_self _

theorem length_toBytes_le_some (number : Nat) (c : Content T) (t : T) :
    (c.toBytes t).length ≤ ((optional c).encodeAt number (some t)).length :=
  length_le_encodeAt number (List.mem_singleton_self _)

theorem length_toBytes_le_repeated (number : Nat) (c : Content T) {t : T} {ts : List T}
    (h : t ∈ ts) : (c.toBytes t).length ≤ ((repeated c).encodeAt number ts).length :=
  length_le_encodeAt number (List.mem_map_of_mem h)

end Field

theorem Fields.encode_nil : Fields.nil.encode () = [] := rfl

theorem Fields.encode_cons {T Ts : Type} (number : Nat) (field : Field T) (rest : Fields Ts) (t : T)
    (ts : Ts) : (cons number field rest).encode (t, ts) = field.encodeAt number t ++ rest.encode ts :=
  List.flatMap_append

section

variable {T Ts : Type} {number : Nat} {field : Field T} {rest : Fields Ts} {t : T} {ts : Ts}
  {bytes : Bytes}

theorem Fields.length_le_of_head (h : bytes.length ≤ (field.encodeAt number t).length) :
    bytes.length ≤ ((cons number field rest).encode (t, ts)).length := by
  rw [encode_cons, List.length_append]
  exact Nat.le_trans h (Nat.le_add_right _ _)

theorem Fields.length_le_of_tail (h : bytes.length ≤ (rest.encode ts).length) :
    bytes.length ≤ ((cons number field rest).encode (t, ts)).length := by
  rw [encode_cons, List.length_append]
  exact Nat.le_trans h (Nat.le_add_left _ _)

end

end ChannelConfig.Wire
