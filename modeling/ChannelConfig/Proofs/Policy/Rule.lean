import ChannelConfig.Policy.Rule
import ChannelConfig.Proofs.Wire.Message

/-! Signature rules on the wire. `merge_eq` unties the recursion of reading: a rule is read with
rules read as sub-messages. From it every rule reads back, by induction over the gates. -/

set_option autoImplicit false

namespace ChannelConfig.SignaturePolicy

open Wire

/-- A rule is settled once the rules inside it are. -/
theorem ind {motive : SignaturePolicy → Prop} (untyped : motive .untyped)
    (signedBy : ∀ i, motive (.signedBy i))
    (nOutOf : ∀ n rules, (∀ r ∈ rules, motive r) → motive (.nOutOf n rules)) :
    ∀ p, motive p
  | .untyped => untyped
  | .signedBy i => signedBy i
  | .nOutOf n rules => nOutOf n rules fun r hr =>
    have : sizeOf r < sizeOf rules := List.sizeOf_lt_of_mem hr
    ind untyped signedBy nOutOf r
termination_by p => sizeOf p

/-! ## Writing -/

/-- The records of a rule. -/
def records : SignaturePolicy → List Record
  | .untyped => []
  | .signedBy identity => [⟨1, .varint identity.toInt64.toUInt64.toNat⟩]
  | .nOutOf n rules =>
    [⟨2, .delimited ((NOutOf.fields (message SignaturePolicy)).encode (n, rules, ()))⟩]

theorem encodeAll_eq (rules : List SignaturePolicy) : encodeAll rules = rules.map encode := by
  induction rules with
  | nil => rfl
  | cons rule rules ih => rw [encodeAll, ih, List.map_cons]

theorem encode_eq (p : SignaturePolicy) : p.encode = serialize p.records := by
  cases p with
  | untyped => rw [SignaturePolicy.encode, records]; rfl
  | signedBy i => rw [SignaturePolicy.encode, records]
  | nOutOf n rules =>
    have hbodies : (Field.repeated .bytes).bodies (rules.map SignaturePolicy.encode) =
        (Field.repeated (message SignaturePolicy)).bodies rules := by
      simp only [Field.repeated, List.map_map]
      rfl
    rw [SignaturePolicy.encode, records, encodeAll_eq]
    simp only [NOutOf.fields, Fields.encode, Fields.records, hbodies]

theorem length_encode_signedBy_le (i : Int32) : (signedBy i).encode.length ≤ 11 := by
  rw [encode_eq, records, serialize, List.flatMap_singleton]
  exact Record.length_encode_varint_le (by decide) (UInt64.toNat_lt_size _)

/-- Every rule of a gate takes a key and a length, and so does the gate, which has a number too. -/
theorem length_encode_nOutOf_le {n : Int32} {rules : List SignaturePolicy}
    (h : (rules.flatMap SignaturePolicy.encode).length + 11 * rules.length + 11 < UInt64.size) :
    (nOutOf n rules).encode.length ≤
      (rules.flatMap SignaturePolicy.encode).length + 11 * rules.length + 22 := by
  have hn := @Field.length_int32_le 1 (by decide) n
  have hshort : (rules.flatMap SignaturePolicy.encode).length < UInt64.size := by omega
  have hrules : ((Field.repeated (message SignaturePolicy)).encodeAt 2 rules).length ≤
      (rules.flatMap SignaturePolicy.encode).length + 11 * rules.length :=
    Field.length_repeated_le (by decide) hshort
  have hcontent : ((NOutOf.fields (message SignaturePolicy)).encode (n, rules, ())).length ≤
      11 + ((rules.flatMap SignaturePolicy.encode).length + 11 * rules.length) := by
    rw [NOutOf.fields, Fields.encode_cons, Fields.encode_cons, Fields.encode_nil, List.append_nil,
      List.length_append]
    exact Nat.add_le_add hn hrules
  have hrecord := @Record.length_encode_delimited_le 2 _ (by decide)
    (Nat.lt_of_le_of_lt hcontent (by omega))
  rw [encode_eq, records, serialize, List.flatMap_singleton]
  omega

theorem nesting_nOutOf (n : Int32) (rules : List SignaturePolicy) :
    (nOutOf n rules).nesting =
      (NOutOf.fields (message SignaturePolicy)).nesting (n, rules, ()) + 1 := by
  have hall : nestingAll rules = (Field.repeated (message SignaturePolicy)).nesting rules := by
    induction rules with
    | nil => rw [nestingAll]; rfl
    | cons rule rules ih => rw [nestingAll, ih]; rfl
  have hfields : (NOutOf.fields (message SignaturePolicy)).nesting (n, rules, ()) =
      max 0 (max ((Field.repeated (message SignaturePolicy)).nesting rules) 0) := rfl
  rw [SignaturePolicy.nesting, hall, hfields]
  omega

/-! ## Reading -/

theorem merge_fields_congr {c c' : Content SignaturePolicy} {levels : Nat}
    (hempty : c.empty = c'.empty) (h : ∀ t bs, c.merge levels t bs = c'.merge levels t bs) :
    (NOutOf.fields c).merge levels = (NOutOf.fields c').merge levels := by
  have habsorb : (NOutOf.fields c).absorb levels = (NOutOf.fields c').absorb levels := by
    funext gate record
    obtain ⟨n, rules, _⟩ := gate
    simp only [NOutOf.fields, Fields.absorb, Field.repeated, hempty, h]
  funext t bs
  simp only [Fields.merge, habsorb]
  rfl

theorem mergeWith_congr {c c' : Content SignaturePolicy} {levels : Nat}
    (hempty : c.empty = c'.empty)
    (h : ∀ left, levels = left + 1 → ∀ t bs, c.merge left t bs = c'.merge left t bs) :
    mergeWith c levels = mergeWith c' levels := by
  have habsorb : absorb c levels = absorb c' levels := by
    cases levels with
    | zero => rfl
    | succ left =>
      have hfields := merge_fields_congr hempty (h left rfl)
      funext before record
      simp only [absorb, hfields]
      rfl
  funext before bs
  simp only [mergeWith, habsorb]

theorem merge_eq (levels : Nat) :
    SignaturePolicy.merge levels = mergeWith (message SignaturePolicy) levels := by
  -- with one level a gate may be read, but no rule in it: both readings fail there
  match levels with
  | 0 =>
    rw [SignaturePolicy.merge]
    · exact mergeWith_congr rfl nofun
    · exact nofun
  | 1 =>
    rw [SignaturePolicy.merge]
    · refine mergeWith_congr rfl fun left hleft t bs => ?_
      obtain rfl : left = 0 := by omega
      rfl
    · omega
  | levels + 2 =>
    rw [SignaturePolicy.merge]
    refine mergeWith_congr rfl fun left hleft t bs => ?_
    obtain rfl : left = levels + 1 := by omega
    rfl

/-! ## Reading back -/

theorem wellFormed_fields : (NOutOf.fields (message SignaturePolicy)).WellFormed :=
  ⟨Field.lawful_int32.sound, by decide, by simp, Field.sound_repeated _,
    by decide, by simp, trivial⟩

theorem readable_records {p : SignaturePolicy} (h : p.encode.length < UInt64.size) :
    ∀ r ∈ p.records, r.Readable fun _ => false := by
  intro r hr
  have hshort : r.body.Short := short_of_length_serialize hr (encode_eq p ▸ h)
  cases p with
  | untyped => cases hr
  | signedBy i =>
    obtain rfl := List.mem_singleton.1 hr
    exact ⟨(by decide : IsFieldNumber 1), ⟨UInt64.toNat_lt_size _, rfl⟩, hshort⟩
  | nOutOf n rules =>
    obtain rfl := List.mem_singleton.1 hr
    exact ⟨(by decide : IsFieldNumber 2), trivial, hshort⟩

theorem merge_encode {p : SignaturePolicy} (h : p.encode.length < UInt64.size) (levels : Nat) :
    SignaturePolicy.merge levels .untyped p.encode =
      p.records.foldlM (absorb (message SignaturePolicy) levels) .untyped := by
  have hparse : parse levels (fun _ => false) (serialize p.records) = .ok p.records :=
    parse_serialize (readable_records h)
  rw [merge_eq, mergeWith, encode_eq, hparse]

theorem records_ne_foreign (p : SignaturePolicy) : ∀ r ∈ p.records, r.body ≠ .foreign := by
  intro r hr
  cases p with
  | untyped => cases hr
  | signedBy i =>
    obtain rfl := List.mem_singleton.1 hr
    exact nofun
  | nOutOf n rules =>
    obtain rfl := List.mem_singleton.1 hr
    exact nofun

theorem records_eq_of_encode_eq {p p' : SignaturePolicy} (h : p.encode = p'.encode) :
    p.records = p'.records := by
  rw [encode_eq, encode_eq] at h
  exact serialize_inj (records_ne_foreign p) (records_ne_foreign p') h

/-- A gate reads back if the rules in it do. -/
theorem readsBack_gate {n : Int32} {rules : List SignaturePolicy}
    (h : ∀ r ∈ rules, (message SignaturePolicy).ReadsBack r) :
    (NOutOf.fields (message SignaturePolicy)).ReadsBack (n, rules, ()) :=
  ⟨Field.lawful_int32.readsBack n, Field.readsBack_repeated h, trivial⟩

theorem injective_of_rules {p : SignaturePolicy}
    (h : ∀ n rules, p = .nOutOf n rules → ∀ r ∈ rules, (message SignaturePolicy).ReadsBack r)
    (p' : SignaturePolicy) (he : p.encode = p'.encode) : p = p' := by
  have hrecords := records_eq_of_encode_eq he
  cases p <;> cases p' <;> simp only [records, List.cons.injEq, Record.mk.injEq, reduceCtorEq,
    Body.varint.injEq, Body.delimited.injEq, and_false, true_and, and_true] at hrecords
  case untyped.untyped => rfl
  case signedBy.signedBy i j =>
    rw [← Field.ofNat_complement i, hrecords, Field.ofNat_complement]
  case nOutOf.nOutOf n rules n' rules' =>
    have hgate := Fields.encode_injective wellFormed_fields (readsBack_gate (h n rules rfl)) _
      hrecords
    rw [(Prod.mk.inj hgate).1, (Prod.mk.inj (Prod.mk.inj hgate).2).1]

theorem merge_encode_eq {p : SignaturePolicy}
    (hrules : ∀ n rules, p = .nOutOf n rules → ∀ r ∈ rules, (message SignaturePolicy).ReadsBack r)
    (h : p.encode.length < UInt64.size) (levels : Nat) :
    SignaturePolicy.merge levels .untyped p.encode = within levels p.nesting p := by
  rw [merge_encode h]
  cases p with
  | untyped =>
    rw [SignaturePolicy.nesting, within_zero]
    rfl
  | signedBy i =>
    rw [SignaturePolicy.nesting, within_zero]
    show Except.ok (signedBy (Int32.ofNat i.toInt64.toUInt64.toNat)) = _
    rw [Field.ofNat_complement]
  | nOutOf n rules =>
    have hbody : (Body.delimited
        ((NOutOf.fields (message SignaturePolicy)).encode (n, rules, ()))).Short :=
      (readable_records h _ (List.mem_singleton_self _)).short
    rw [nesting_nOutOf]
    show absorb _ levels .untyped _ >>= pure = _
    rw [bind_pure]
    cases levels with
    | zero => exact (within_zero_succ _ _).symm
    | succ levels =>
      rw [within_succ]
      show (Fields.merge _ levels _ _).map _ = _
      rw [Fields.merge_encode wellFormed_fields (readsBack_gate (hrules n rules rfl)) hbody,
        map_within]

theorem readsBack (p : SignaturePolicy) : (Message.codec (M := SignaturePolicy)).ReadsBack p := by
  induction p using ind with
  | untyped => exact ⟨merge_encode_eq nofun, injective_of_rules nofun⟩
  | signedBy i => exact ⟨merge_encode_eq nofun, injective_of_rules nofun⟩
  | nOutOf n rules ih =>
    have hrules : ∀ n' rules', nOutOf n rules = nOutOf n' rules' →
        ∀ r ∈ rules', (message SignaturePolicy).ReadsBack r := by
      rintro n' rules' he r hr
      cases he
      exact (ih r hr).content
    exact ⟨merge_encode_eq hrules, injective_of_rules hrules⟩

instance : LawfulMessage SignaturePolicy := ⟨rfl, readsBack⟩

end ChannelConfig.SignaturePolicy

namespace ChannelConfig

open Wire

instance : LawfulMessage NOutOf :=
  .ofFields rfl (fun _ => rfl) rfl (by simp [NOutOf.fields])

end ChannelConfig
