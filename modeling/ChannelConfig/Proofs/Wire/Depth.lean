import ChannelConfig.Proofs.Result
import ChannelConfig.Proofs.Wire.Message

/-! What is read nests no deeper than the levels that were left for it. `StaysWithin` says so of
contents, fields and codecs, each on top of a value that already is within the levels;
`nesting_le_of_decode` is what it gives for a whole message. -/

set_option autoImplicit false

namespace ChannelConfig.Wire

variable {T : Type}

/-! ## Levels of a field -/

theorem foldr_max_le_iff {A : Type} {f : A → Nat} {as : List A} {n : Nat} :
    as.foldr (fun a m => max (f a) m) 0 ≤ n ↔ ∀ a ∈ as, f a ≤ n := by
  induction as with
  | nil => simp
  | cons a as ih => rw [List.foldr_cons, Nat.max_le, ih, List.forall_mem_cons]

namespace Field

theorem nesting_single (c : Content T) (t : T) :
    (single c).nesting t = if c.toBytes t = [] then 0 else c.nesting t :=
  rfl

theorem nesting_single_le (c : Content T) (t : T) : (single c).nesting t ≤ c.nesting t := by
  rw [nesting_single]
  split
  · exact Nat.zero_le _
  · exact Nat.le_refl _

theorem nesting_optional_le_iff {c : Content T} {t : Option T} {n : Nat} :
    (optional c).nesting t ≤ n ↔ ∀ a, t = some a → c.nesting a ≤ n := by
  cases t with
  | none => simp [optional]
  | some a => simp [optional]

theorem nesting_repeated_le_iff {c : Content T} {ts : List T} {n : Nat} :
    (repeated c).nesting ts ≤ n ↔ ∀ t ∈ ts, c.nesting t ≤ n :=
  foldr_max_le_iff

theorem nesting_entry (c : Content T) (name : String) (t : T) :
    (entry c).nesting (name, t, ()) = (single c).nesting t := by
  show max (text.nesting name) (max ((single c).nesting t) 0) = _
  rw [nesting_text]
  omega

/-- A map is one level deeper than the values in it. -/
theorem nesting_map_le_iff {c : Content T} {m : NameMap T} {n : Nat} :
    (map c).nesting m ≤ n ↔ ∀ name t, m.find? name = some t → (single c).nesting t + 1 ≤ n := by
  show m.toList.foldr (fun e n => max ((entry c).nesting (e.1, e.2, ()) + 1) n) 0 ≤ n ↔ _
  simp only [foldr_max_le_iff, Prod.forall, nesting_entry, SortedFrom.find?_eq_some_iff]

end Field

/-- No value of any of the fields takes more than so many levels. -/
@[simp] def Fields.AtMost (levels : Nat) : {Ts : Type} → Fields Ts → Prop
  | _, .nil => True
  | _, .cons _ field rest => (∀ t, field.nesting t ≤ levels) ∧ rest.AtMost levels

theorem Fields.AtMost.nesting_le {levels : Nat} : {Ts : Type} → {fields : Fields Ts} →
    fields.AtMost levels → (ts : Ts) → fields.nesting ts ≤ levels
  | _, .nil, _, _ => Nat.zero_le _
  | _, .cons _ _ _, h, (t, ts) => Nat.max_le.2 ⟨h.1 t, AtMost.nesting_le h.2 ts⟩

/-! ## Contents and fields -/

/-- Reading on top of the empty value, or of one within the levels, gives one within the levels. -/
def Content.StaysWithin (c : Content T) (levels : Nat) : Prop :=
  ∀ t bs t', t = c.empty ∨ c.nesting t ≤ levels → c.merge levels t bs = .ok t' →
    c.nesting t' ≤ levels

structure Field.StaysWithin (f : Field T) (levels : Nat) : Prop where
  nesting_empty : f.nesting f.empty = 0
  absorb : ∀ t body t', f.nesting t ≤ levels → f.absorb levels t body = .ok t' →
    f.nesting t' ≤ levels

/-- Each field stays within the levels. -/
@[simp] def Fields.StaysWithin (levels : Nat) : {Ts : Type} → Fields Ts → Prop
  | _, .nil => True
  | _, .cons _ field rest => field.StaysWithin levels ∧ rest.StaysWithin levels

namespace Fields

theorem nesting_empty {levels : Nat} : {Ts : Type} → {fields : Fields Ts} →
    fields.StaysWithin levels → fields.nesting fields.empty = 0
  | _, .nil, _ => rfl
  | _, .cons _ field rest, h => by
    obtain ⟨hfield, hrest⟩ := h
    rw [empty, nesting, hfield.nesting_empty, nesting_empty hrest]
    rfl

theorem nesting_le_of_absorb {levels : Nat} {r : Record} : {Ts : Type} → {fields : Fields Ts} →
    fields.StaysWithin levels → {ts ts' : Ts} → fields.nesting ts ≤ levels →
    fields.absorb levels ts r = .ok ts' → fields.nesting ts' ≤ levels
  | _, .nil, _, _, _, hts, _ => hts
  | _, .cons number field rest, h, (t, ts), ts', hts, hread => by
    obtain ⟨hfield, hrest⟩ := h
    obtain ⟨ht, hts⟩ := Nat.max_le.1 hts
    rw [absorb] at hread
    split at hread
    · obtain ⟨t', ht', rfl⟩ := exists_of_map_eq_ok hread
      exact Nat.max_le.2 ⟨hfield.absorb t _ t' ht ht', hts⟩
    · obtain ⟨ts', hts', rfl⟩ := exists_of_map_eq_ok hread
      exact Nat.max_le.2 ⟨ht, nesting_le_of_absorb hrest hts hts'⟩

variable {Ts : Type} {fields : Fields Ts} {levels : Nat}

theorem nesting_le_of_merge (h : fields.StaysWithin levels) {ts ts' : Ts} {bs : Bytes}
    (hts : fields.nesting ts ≤ levels) (hread : fields.merge levels ts bs = .ok ts') :
    fields.nesting ts' ≤ levels := by
  rw [merge] at hread
  split at hread
  · cases hread
  · exact of_foldlM_eq_ok (fun _ _ _ => nesting_le_of_absorb h) hts hread

end Fields

theorem Content.staysWithin_bytes (levels : Nat) : Content.bytes.StaysWithin levels :=
  fun _ _ _ _ _ => Nat.zero_le _

theorem Content.staysWithin_text (levels : Nat) : Content.text.StaysWithin levels :=
  fun _ _ _ _ _ => Nat.zero_le _

namespace Field

variable {c : Content T} {levels : Nat}

theorem staysWithin_number {toNat : T → Nat} {ofNat : Nat → T} :
    (number toNat ofNat).StaysWithin levels :=
  ⟨rfl, fun _ _ _ _ _ => Nat.zero_le _⟩

@[simp] theorem staysWithin_uint64 : uint64.StaysWithin levels := staysWithin_number

@[simp] theorem staysWithin_uint32 : uint32.StaysWithin levels := staysWithin_number

@[simp] theorem staysWithin_int64 : int64.StaysWithin levels := staysWithin_number

@[simp] theorem staysWithin_int32 : int32.StaysWithin levels := staysWithin_number

@[simp] theorem staysWithin_bool : bool.StaysWithin levels := staysWithin_number

theorem staysWithin_single (hc : c.Lawful) (h : c.StaysWithin levels) :
    (single c).StaysWithin levels where
  nesting_empty := if_pos hc.toBytes_empty
  absorb t body t' ht hread := by
    cases body with
    | varint n => cases hread
    | foreign => cases hread
    | delimited bs =>
      have hstart : t = c.empty ∨ c.nesting t ≤ levels := by
        rw [nesting_single] at ht
        split at ht
        · -- a value may be left out at any number of levels, but only the empty one is
          next hnil =>
          exact .inl ((hc.readsBack t).injective _ (hnil.trans hc.toBytes_empty.symm))
        · exact .inr ht
      exact Nat.le_trans (nesting_single_le c t') (h t bs t' hstart hread)

@[simp] theorem staysWithin_bytes : bytes.StaysWithin levels :=
  staysWithin_single Content.lawful_bytes (Content.staysWithin_bytes levels)

@[simp] theorem staysWithin_text : text.StaysWithin levels :=
  staysWithin_single Content.lawful_text (Content.staysWithin_text levels)

theorem staysWithin_optional (h : c.StaysWithin levels) : (optional c).StaysWithin levels where
  nesting_empty := rfl
  absorb t body t' ht hread := by
    cases body with
    | varint n => cases hread
    | foreign => cases hread
    | delimited bs =>
      obtain ⟨a, ha, rfl⟩ := exists_of_map_eq_ok hread
      refine h (t.getD c.empty) bs a ?_ ha
      cases t with
      | none => exact .inl rfl
      | some b => exact .inr ht

theorem staysWithin_repeated (h : c.StaysWithin levels) : (repeated c).StaysWithin levels where
  nesting_empty := rfl
  absorb ts body ts' hts hread := by
    cases body with
    | varint n => cases hread
    | foreign => cases hread
    | delimited bs =>
      obtain ⟨a, ha, rfl⟩ := exists_of_map_eq_ok hread
      rw [nesting_repeated_le_iff] at hts ⊢
      intro t ht
      rcases List.mem_append.1 ht with ht | ht
      · exact hts t ht
      · rw [List.mem_singleton.1 ht]
        exact h c.empty bs a (.inl rfl) ha

@[simp] theorem staysWithin_repeated_bytes : (repeated .bytes).StaysWithin levels :=
  staysWithin_repeated (Content.staysWithin_bytes levels)

@[simp] theorem staysWithin_repeated_text : (repeated .text).StaysWithin levels :=
  staysWithin_repeated (Content.staysWithin_text levels)

/-- The values of a map have one level less than the map. -/
theorem staysWithin_map (hc : c.Lawful) (h : ∀ left, levels = left + 1 → c.StaysWithin left) :
    (map c).StaysWithin levels where
  nesting_empty := rfl
  absorb m body m' hm hread := by
    cases body with
    | varint n => cases hread
    | foreign => cases hread
    | delimited bs =>
      cases levels with
      | zero => cases hread
      | succ left =>
        have hentry : (entry c).StaysWithin left :=
          ⟨staysWithin_text, staysWithin_single hc (h left rfl), trivial⟩
        obtain ⟨⟨name, v, _⟩, hmerge, rfl⟩ := exists_of_map_eq_ok hread
        have hempty := Fields.nesting_empty hentry
        have hv := Fields.nesting_le_of_merge hentry (by omega) hmerge
        rw [nesting_entry] at hv
        rw [nesting_map_le_iff] at hm ⊢
        intro key t ht
        rw [SortedFrom.find?_insert] at ht
        split at ht
        · cases ht
          exact Nat.succ_le_succ hv
        · exact hm key t ht

@[simp] theorem staysWithin_map_bytes : (map .bytes).StaysWithin levels :=
  staysWithin_map Content.lawful_bytes fun left _ => Content.staysWithin_bytes left

end Field

/-! ## Messages -/

structure Codec.StaysWithin {M : Type} (c : Codec M) (levels : Nat) : Prop where
  nesting_empty : c.nesting c.empty = 0
  merge : ∀ m bs m', c.nesting m ≤ levels → c.merge levels m bs = .ok m' → c.nesting m' ≤ levels

/-- A message inside another one has one level less. -/
theorem Codec.staysWithin_content {M : Type} {c : Codec M} {levels : Nat}
    (h : ∀ left, levels = left + 1 → c.StaysWithin left) : c.content.StaysWithin levels := by
  intro m bs m' hm hread
  cases levels with
  | zero => cases hread
  | succ left =>
    refine Nat.succ_le_succ ((h left rfl).merge m bs m' ?_ hread)
    rcases hm with rfl | hm
    · show c.nesting c.empty ≤ left
      rw [(h left rfl).nesting_empty]
      exact Nat.zero_le _
    · exact Nat.le_of_succ_le_succ hm

/-- A message that is read no deeper than the levels that are left. -/
class ShallowMessage (M : Type) [Message M] : Prop where
  staysWithin : ∀ levels, (Message.codec (M := M)).StaysWithin levels

section

variable {M : Type} [Message M]

/-- A message given by its fields is as shallow as they are. -/
theorem ShallowMessage.ofFields {Ts : Type} {fields : Fields Ts} {toTuple : M → Ts}
    {ofTuple : Ts → M} (hcodec : Message.codec = Codec.ofFields fields toTuple ofTuple)
    (hto : ∀ ts, toTuple (ofTuple ts) = ts) (hfields : ∀ levels, fields.StaysWithin levels) :
    ShallowMessage M := by
  refine ⟨fun levels => ?_⟩
  rw [hcodec]
  refine ⟨?_, fun m bs m' hm hread => ?_⟩
  · show fields.nesting (toTuple (ofTuple fields.empty)) = 0
    rw [hto]
    exact Fields.nesting_empty (hfields levels)
  · obtain ⟨ts, hts, rfl⟩ := exists_of_map_eq_ok hread
    show fields.nesting (toTuple (ofTuple ts)) ≤ levels
    rw [hto]
    exact Fields.nesting_le_of_merge (hfields levels) hm hts

variable [ShallowMessage M] {levels : Nat}

theorem nesting_empty : nesting (Message.codec (M := M)).empty = 0 :=
  (ShallowMessage.staysWithin 0).nesting_empty

theorem staysWithin_message : (message M).StaysWithin levels :=
  Codec.staysWithin_content fun left _ => ShallowMessage.staysWithin left

@[simp] theorem Field.staysWithin_optional_message :
    (Field.optional (message M)).StaysWithin levels :=
  staysWithin_optional staysWithin_message

@[simp] theorem Field.staysWithin_repeated_message :
    (Field.repeated (message M)).StaysWithin levels :=
  staysWithin_repeated staysWithin_message

@[simp] theorem Field.staysWithin_map_message [LawfulMessage M] :
    (Field.map (message M)).StaysWithin levels :=
  staysWithin_map lawful_message fun _ _ => staysWithin_message

theorem nesting_le_of_decode {bs : Bytes} {m : M} (h : decode bs = .ok m) :
    nesting m ≤ maxLevels := by
  have hempty : nesting (Message.codec (M := M)).empty ≤ maxLevels :=
    nesting_empty (M := M) ▸ Nat.zero_le maxLevels
  exact (ShallowMessage.staysWithin maxLevels).merge _ bs m hempty h

end

end ChannelConfig.Wire
