import ChannelConfig.Proofs.Wire.Field

/-! Messages that read back what they write. `Fields.merge_encode` and `Fields.encode_injective`
bring a tuple back from its fields, given that every field reads back its own value; maps are built
on them, their entries being messages. `LawfulMessage` says it of a whole message, and
`decode_encode_eq` and `encode_injective` are what it gives. -/

set_option autoImplicit false

namespace ChannelConfig.Wire

/-! ## Fields side by side -/

namespace Fields

@[simp] def numbers : {Ts : Type} → Fields Ts → List Nat
  | _, .nil => []
  | _, .cons number _ rest => number :: rest.numbers

/-- Every field is sound and has a number of its own. -/
def WellFormed : {Ts : Type} → Fields Ts → Prop
  | _, .nil => True
  | _, .cons number field rest =>
    field.Sound ∧ IsFieldNumber number ∧ number ∉ rest.numbers ∧ rest.WellFormed

/-- Every field reads back its value. -/
def ReadsBack : {Ts : Type} → Fields Ts → Ts → Prop
  | _, .nil, _ => True
  | _, .cons _ field rest, (t, ts) => field.ReadsBack t ∧ rest.ReadsBack ts

/-- Every field is lawful and has a number of its own. -/
@[simp] def Lawful : {Ts : Type} → Fields Ts → Prop
  | _, .nil => True
  | _, .cons number field rest =>
    field.Lawful ∧ IsFieldNumber number ∧ number ∉ rest.numbers ∧ rest.Lawful

theorem Lawful.wellFormed : {Ts : Type} → {fields : Fields Ts} → fields.Lawful → fields.WellFormed
  | _, .nil, _ => trivial
  | _, .cons _ _ _, h => by
    obtain ⟨hfield, hnumber, hnew, hrest⟩ := h
    exact ⟨hfield.sound, hnumber, hnew, hrest.wellFormed⟩

theorem Lawful.readsBack : {Ts : Type} → {fields : Fields Ts} → fields.Lawful →
    ∀ ts, fields.ReadsBack ts
  | _, .nil, _, _ => trivial
  | _, .cons _ _ _, h, (t, ts) => by
    obtain ⟨hfield, -, -, hrest⟩ := h
    exact ⟨hfield.readsBack t, hrest.readsBack ts⟩

theorem number_mem_of_mem_records : {Ts : Type} → {fields : Fields Ts} → {ts : Ts} → {r : Record} →
    r ∈ fields.records ts → r.number ∈ fields.numbers
  | _, .nil, _, _, h => by cases h
  | _, .cons number field rest, (t, ts), r, h => by
    rcases List.mem_append.1 h with h | h
    · obtain ⟨body, -, rfl⟩ := List.mem_map.1 h
      exact List.mem_cons_self ..
    · exact List.mem_cons_of_mem _ (number_mem_of_mem_records h)

theorem readable_of_mem_records : {Ts : Type} → {fields : Fields Ts} → fields.WellFormed →
    {ts : Ts} → {r : Record} → r ∈ fields.records ts → r.body.Short →
    r.Readable fun number => fields.isMap number
  | _, .nil, _, _, _, h, _ => by cases h
  | _, .cons number field rest, hwf, (t, ts), r, h, hshort => by
    obtain ⟨hsound, hnumber, hnew, hrest⟩ := hwf
    rcases List.mem_append.1 h with h | h
    · obtain ⟨body, hbody, rfl⟩ := List.mem_map.1 h
      refine ⟨hnumber, ?_, hshort⟩
      have := hsound.bodies t body hbody
      rwa [isMap, if_pos rfl]
    · have hne : number ≠ r.number := fun he => hnew (he ▸ number_mem_of_mem_records h)
      obtain ⟨hr, hrsound, -⟩ := readable_of_mem_records hrest h hshort
      refine ⟨hr, ?_, hshort⟩
      rwa [isMap, if_neg hne.symm]

/-! ### Reading -/

theorem foldlM_absorb_first {T Ts : Type} (levels number : Nat) (field : Field T)
    (rest : Fields Ts) (bodies : List Body) (t : T) (ts : Ts) :
    (bodies.map (Record.mk number)).foldlM (absorb levels (.cons number field rest)) (t, ts) =
      (bodies.foldlM (field.absorb levels) t).map (·, ts) := by
  induction bodies generalizing t with
  | nil => rfl
  | cons body bodies ih =>
    rw [List.map_cons, List.foldlM_cons, List.foldlM_cons, absorb, if_pos rfl]
    cases field.absorb levels t body with
    | error e => rfl
    | ok t' => exact ih t'

theorem foldlM_absorb_rest {T Ts : Type} (levels number : Nat) (field : Field T)
    (rest : Fields Ts) (records : List Record) (h : ∀ r ∈ records, r.number ≠ number) (t : T)
    (ts : Ts) : records.foldlM (absorb levels (.cons number field rest)) (t, ts) =
      (records.foldlM (rest.absorb levels) ts).map (t, ·) := by
  induction records generalizing ts with
  | nil => rfl
  | cons r records ih =>
    rw [List.foldlM_cons, List.foldlM_cons, absorb, if_neg (h r (List.mem_cons_self ..))]
    cases rest.absorb levels ts r with
    | error e => rfl
    | ok ts' => exact ih (fun r' hr' => h r' (List.mem_cons_of_mem r hr')) ts'

theorem foldlM_absorb_records (levels : Nat) : {Ts : Type} → {fields : Fields Ts} →
    fields.WellFormed → {ts : Ts} → fields.ReadsBack ts →
    (∀ r ∈ fields.records ts, r.body.Short) →
    (fields.records ts).foldlM (fields.absorb levels) fields.empty =
      within levels (fields.nesting ts) ts
  | _, .nil, _, (), _, _ => rfl
  | _, .cons number field rest, hwf, (t, ts), hback, hshort => by
    obtain ⟨-, -, hnew, hrest⟩ := hwf
    obtain ⟨ht, hts⟩ := hback
    have hfirst := ht.absorb (fun body hbody =>
      hshort ⟨number, body⟩ (List.mem_append_left _ (List.mem_map_of_mem hbody))) levels
    have hothers := foldlM_absorb_records levels hrest hts fun r hr =>
      hshort r (List.mem_append_right _ hr)
    have hne : ∀ r ∈ rest.records ts, r.number ≠ number := by
      rintro r hr rfl
      exact hnew (number_mem_of_mem_records hr)
    rw [records, List.foldlM_append, empty, foldlM_absorb_first, hfirst, map_within, nesting]
    refine within_bind _ _ ?_
    rw [foldlM_absorb_rest _ _ _ _ _ hne, hothers, map_within]

section

variable {Ts : Type} {fields : Fields Ts}

/-- Fields read back what they write. -/
theorem merge_encode (h : fields.WellFormed) {ts : Ts} (hts : fields.ReadsBack ts)
    (hlength : (fields.encode ts).length < UInt64.size) (levels : Nat) :
    fields.merge levels fields.empty (fields.encode ts) =
      within levels (fields.nesting ts) ts := by
  have hshort : ∀ r ∈ fields.records ts, r.body.Short := fun r hr =>
    short_of_length_serialize hr hlength
  have hparse : parse levels (fun number => fields.isMap number) (serialize (fields.records ts)) =
      .ok (fields.records ts) :=
    parse_serialize fun r hr => readable_of_mem_records h hr (hshort r hr)
  simp only [merge, encode, hparse]
  exact foldlM_absorb_records levels h hts hshort

end

/-! ### Writing -/

theorem encode_empty : {Ts : Type} → {fields : Fields Ts} → fields.WellFormed →
    fields.encode fields.empty = []
  | _, .nil, _ => rfl
  | _, .cons number field rest, hwf => by
    obtain ⟨hsound, -, -, hrest⟩ := hwf
    have ih : serialize (rest.records rest.empty) = [] := encode_empty hrest
    rw [encode, empty, records, hsound.bodies_empty]
    exact ih

theorem body_ne_foreign : {Ts : Type} → {fields : Fields Ts} → fields.WellFormed → {ts : Ts} →
    {r : Record} → r ∈ fields.records ts → r.body ≠ .foreign
  | _, .nil, _, _, _, h => by cases h
  | _, .cons number field rest, hwf, (t, ts), r, h => by
    obtain ⟨hsound, -, -, hrest⟩ := hwf
    rcases List.mem_append.1 h with h | h
    · obtain ⟨body, hbody, rfl⟩ := List.mem_map.1 h
      rintro rfl
      exact hsound.bodies t .foreign hbody
    · exact body_ne_foreign hrest h

/-- The records of the first field can be told from the others by their number. -/
theorem filter_records {T Ts : Type} {number : Nat} (field : Field T) {rest : Fields Ts}
    (hnew : number ∉ rest.numbers) (t : T) (ts : Ts) :
    (records (.cons number field rest) (t, ts)).filter (·.number = number) =
      (field.bodies t).map (Record.mk number) ∧
    (records (.cons number field rest) (t, ts)).filter (¬ ·.number = number) =
      rest.records ts := by
  have hne : ∀ r ∈ rest.records ts, r.number ≠ number := by
    rintro r hr rfl
    exact hnew (number_mem_of_mem_records hr)
  rw [records, List.filter_append, List.filter_append]
  constructor
  · rw [List.filter_eq_self.2, List.filter_eq_nil_iff.2, List.append_nil]
    · intro r hr
      simpa using hne r hr
    · intro r hr
      obtain ⟨body, -, rfl⟩ := List.mem_map.1 hr
      simp
  · rw [List.filter_eq_nil_iff.2, List.filter_eq_self.2, List.nil_append]
    · intro r hr
      simpa using hne r hr
    · intro r hr
      obtain ⟨body, -, rfl⟩ := List.mem_map.1 hr
      simp

theorem records_injective : {Ts : Type} → {fields : Fields Ts} → fields.WellFormed → {ts : Ts} →
    fields.ReadsBack ts → (ts' : Ts) → fields.records ts = fields.records ts' → ts = ts'
  | _, .nil, _, (), _, (), _ => rfl
  | _, .cons number field rest, hwf, (t, ts), hback, (t', ts'), h => by
    obtain ⟨-, -, hnew, hrest⟩ := hwf
    obtain ⟨ht, hts⟩ := hback
    obtain ⟨hfirst, hothers⟩ := filter_records field hnew t ts
    obtain ⟨hfirst', hothers'⟩ := filter_records field hnew t' ts'
    rw [h, hfirst'] at hfirst
    rw [h, hothers'] at hothers
    have hbodies : field.bodies t' = field.bodies t :=
      eq_of_map_eq (fun _ _ _ he => (Record.mk.inj he).2) hfirst
    rw [ht.injective t' hbodies.symm, records_injective hrest hts ts' hothers.symm]

/-- Different values are written differently. -/
theorem encode_injective {Ts : Type} {fields : Fields Ts} (h : fields.WellFormed) {ts : Ts}
    (hts : fields.ReadsBack ts) (ts' : Ts) (he : fields.encode ts = fields.encode ts') :
    ts = ts' :=
  records_injective h hts ts'
    (serialize_inj (fun _ hr => body_ne_foreign h hr) (fun _ hr => body_ne_foreign h hr) he)

end Fields

/-! ## Maps -/

namespace Field

variable {V : Type} {c : Content V}

theorem wellFormed_entry (h : c.toBytes c.empty = []) : (entry c).WellFormed :=
  ⟨lawful_text.sound, by decide, by simp, sound_single h, by decide,
    by simp, trivial⟩

theorem readsBack_entry (hempty : c.toBytes c.empty = []) (name : String) {v : V}
    (h : c.ReadsBack v) : (entry c).ReadsBack (name, v, ()) :=
  ⟨lawful_text.readsBack name, readsBack_single hempty h, trivial⟩

theorem sound_map (c : Content V) : (map c).Sound where
  bodies_empty := rfl
  bodies m body hbody := by
    obtain ⟨e, -, rfl⟩ := List.mem_map.1 hbody
    exact trivial

/-- The entries of a map, one after the other. -/
theorem foldlM_absorb_map (hempty : c.toBytes c.empty = []) (levels : Nat)
    {es : List (String × V)} (h : ∀ e ∈ es, c.ReadsBack e.2)
    (hshort : ∀ e ∈ es, ((entry c).encode (e.1, e.2, ())).length < UInt64.size) (m : NameMap V) :
    (es.map fun e => Body.delimited ((entry c).encode (e.1, e.2, ()))).foldlM
        ((map c).absorb levels) m =
      within levels (es.foldr (fun e n => max ((entry c).nesting (e.1, e.2, ()) + 1) n) 0)
        (es.foldl (fun acc e => acc.insert e.1 e.2) m) := by
  induction es generalizing m with
  | nil => rfl
  | cons e es ih =>
    have hrest := ih (fun e' he' => h e' (List.mem_cons_of_mem e he'))
      (fun e' he' => hshort e' (List.mem_cons_of_mem e he')) (m.insert e.1 e.2)
    have hmerge := Fields.merge_encode (wellFormed_entry hempty)
      (readsBack_entry hempty e.1 (h e (List.mem_cons_self ..))) (hshort e (List.mem_cons_self ..))
    have hfirst : (map c).absorb levels m (.delimited ((entry c).encode (e.1, e.2, ()))) =
        within levels ((entry c).nesting (e.1, e.2, ()) + 1) (m.insert e.1 e.2) := by
      cases levels with
      | zero => exact (within_zero_succ _ _).symm
      | succ levels =>
        rw [within_succ]
        show ((entry c).merge levels _ _).map _ = _
        rw [hmerge, map_within]
    rw [List.map_cons, List.foldlM_cons, hfirst, List.foldr_cons, List.foldl_cons]
    exact within_bind _ _ hrest

theorem readsBack_map (hempty : c.toBytes c.empty = []) {m : NameMap V}
    (h : ∀ e ∈ m.toList, c.ReadsBack e.2) : (map c).ReadsBack m := by
  constructor
  · intro hshort levels
    have hfold := foldlM_absorb_map hempty levels h
      (fun e he => hshort _ (List.mem_map_of_mem he)) .nil
    rw [show m.toList.foldl (fun acc e => acc.insert e.1 e.2) .nil = m from
      SortedFrom.ofList_toList m] at hfold
    exact hfold
  · intro m' hbodies
    refine SortedFrom.toList_inj.1 (eq_of_map_eq (fun e he e' hee => ?_) hbodies)
    have hentry := Fields.encode_injective (wellFormed_entry hempty)
      (readsBack_entry hempty e.1 (h e he)) (e'.1, e'.2, ()) (Body.delimited.inj hee)
    rw [Prod.mk.injEq, Prod.mk.injEq] at hentry
    exact Prod.ext hentry.1 hentry.2.1

theorem lawful_map (h : c.Lawful) : (map c).Lawful :=
  ⟨sound_map c, fun _ => readsBack_map h.toBytes_empty fun e _ => h.readsBack e.2⟩

@[simp] theorem lawful_map_bytes : (map .bytes).Lawful := lawful_map Content.lawful_bytes

end Field

/-! ## Whole messages -/

structure Codec.ReadsBack {M : Type} (c : Codec M) (m : M) : Prop where
  merge : (c.encode m).length < UInt64.size →
    ∀ levels, c.merge levels c.empty (c.encode m) = within levels (c.nesting m) m
  injective : ∀ m', c.encode m = c.encode m' → m = m'

/-- A message inside another one takes one level more. -/
theorem Codec.ReadsBack.content {M : Type} {c : Codec M} {m : M} (h : c.ReadsBack m) :
    c.content.ReadsBack m where
  merge hlength levels := by
    cases levels with
    | zero => exact (within_zero_succ _ _).symm
    | succ levels =>
      show c.merge levels c.empty (c.encode m) = within (levels + 1) (c.nesting m + 1) m
      rw [within_succ]
      exact h.merge hlength levels
  injective := h.injective

/-- A message that reads back what it writes. -/
class LawfulMessage (M : Type) [Message M] : Prop where
  encode_empty : (Message.codec (M := M)).encode Message.codec.empty = []
  readsBack : ∀ m : M, Message.codec.ReadsBack m

section

variable {M : Type} [Message M]

/-- A message given by its fields reads back if they do. -/
theorem LawfulMessage.ofFields {Ts : Type} {fields : Fields Ts} {toTuple : M → Ts}
    {ofTuple : Ts → M} (hcodec : Message.codec = Codec.ofFields fields toTuple ofTuple)
    (hof : ∀ m, ofTuple (toTuple m) = m) (hto : toTuple (ofTuple fields.empty) = fields.empty)
    (hfields : fields.Lawful) : LawfulMessage M where
  encode_empty := by
    rw [hcodec]
    show fields.encode (toTuple (ofTuple fields.empty)) = []
    rw [hto]
    exact Fields.encode_empty hfields.wellFormed
  readsBack m := by
    rw [hcodec]
    constructor
    · intro hlength levels
      show (fields.merge levels (toTuple (ofTuple fields.empty)) (fields.encode (toTuple m))).map
        ofTuple = within levels (fields.nesting (toTuple m)) m
      rw [hto, Fields.merge_encode hfields.wellFormed (hfields.readsBack _) hlength, map_within,
        hof]
    · intro m' he
      have := Fields.encode_injective hfields.wellFormed (hfields.readsBack _) _ he
      rw [← hof m, ← hof m', this]

variable [LawfulMessage M]

theorem lawful_message : (message M).Lawful :=
  ⟨LawfulMessage.encode_empty, fun m => (LawfulMessage.readsBack m).content⟩

@[simp] theorem Field.lawful_optional_message : (Field.optional (message M)).Lawful :=
  lawful_optional lawful_message

@[simp] theorem Field.lawful_repeated_message : (Field.repeated (message M)).Lawful :=
  lawful_repeated lawful_message

@[simp] theorem Field.lawful_map_message : (Field.map (message M)).Lawful :=
  lawful_map lawful_message

theorem decode_encode_eq {m : M} (h : (encode m).length < UInt64.size) :
    decode (encode m) = if nesting m ≤ maxLevels then .ok m else .error .tooDeep :=
  (LawfulMessage.readsBack m).merge h maxLevels

theorem decode_encode_of_le {m : M} (hlength : (encode m).length < UInt64.size)
    (hnesting : nesting m ≤ maxLevels) : decode (encode m) = .ok m :=
  (decode_encode_eq hlength).trans (if_pos hnesting)

theorem encode_inj {m m' : M} : encode m = encode m' ↔ m = m' :=
  ⟨(LawfulMessage.readsBack m).injective m', congrArg encode⟩

end

end ChannelConfig.Wire
