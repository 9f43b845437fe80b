import ChannelConfig.NameMap

/-! Maps from names by what a look-up finds in them: the entries of a map are what can be looked up,
and an overlay finds the second map's entry first. -/

set_option autoImplicit false

namespace ChannelConfig

theorem rel_map {A B : Type} {R : B → A → Prop} {f : A → B} (h : ∀ a, R (f a) a) (a : Option A) :
    Option.Rel R (a.map f) a := by
  cases a with
  | none => exact .none
  | some a => exact .some (h a)

/-- What two look-ups find agrees as far as both agree with what a third one finds. -/
theorem rel_of_rel {A B : Type} {R : B → A → Prop} {S : A → A → Prop} {b : Option B}
    {a a' : Option A} (ha : Option.Rel R b a) (ha' : Option.Rel R b a')
    (h : ∀ b a a', R b a → R b a' → S a a') : Option.Rel S a a' := by
  cases ha with
  | none =>
    cases ha'
    exact .none
  | some ha =>
    cases ha' with
    | some ha' => exact .some (h _ _ _ ha ha')

namespace SortedFrom

variable {V : Type} {lo : Option String}

/-! ## Entries and look-up -/

theorem find?_eq_some_iff {key : String} {v : V} :
    {lo : Option String} → (m : SortedFrom V lo) → m.find? key = some v ↔ (key, v) ∈ m.toList
  | _, .nil => by simp
  | _, .cons name _ w rest => by
    have ih : rest.find? key = some v ↔ (key, v) ∈ rest.toList := find?_eq_some_iff rest
    by_cases h : name = key
    · subst h
      have hnone := find?_eq_none_of_le rest (String.le_refl name)
      have hmem : (name, v) ∉ rest.toList := by
        rw [← ih, hnone]
        simp
      simp [toList, find?_cons_self, hmem, eq_comm]
    · rw [find?_cons_of_ne h, ih, toList, List.mem_cons, Prod.mk.injEq]
      simp [Ne.symm h]

theorem mem_names_iff {key : String} (m : SortedFrom V lo) :
    key ∈ m.names ↔ ∃ v, m.find? key = some v := by
  simp only [find?_eq_some_iff, names, List.mem_map, Prod.exists]
  constructor
  · rintro ⟨name, v, hmem, rfl⟩
    exact ⟨v, hmem⟩
  · rintro ⟨v, hmem⟩
    exact ⟨key, v, hmem, rfl⟩

theorem contains_iff {key : String} (m : SortedFrom V lo) :
    m.contains key = true ↔ ∃ v, m.find? key = some v := by
  rw [contains, Option.isSome_iff_exists]

theorem isEmpty_iff (m : SortedFrom V lo) : m.isEmpty = true ↔ ∀ key, m.find? key = none := by
  cases m with
  | nil => simp [isEmpty]
  | cons name above v rest =>
    simp only [isEmpty, Bool.false_eq_true, false_iff]
    intro h
    have := h name
    rw [find?_cons_self] at this
    cases this

/-- A test of all entries, by look-up. -/
theorem any_toList_iff (m : SortedFrom V lo) (p : String × V → Bool) :
    m.toList.any p = true ↔ ∃ key v, m.find? key = some v ∧ p (key, v) = true := by
  simp only [List.any_eq_true, Prod.exists, find?_eq_some_iff]

/-! ## Changed entries -/

theorem toList_map {W : Type} (f : String → V → W) : {lo : Option String} → (m : SortedFrom V lo) →
    (m.map f).toList = m.toList.map fun e => (e.1, f e.1 e.2)
  | _, .nil => rfl
  | _, .cons name _ v rest => by
    rw [map, toList, toList, List.map_cons, toList_map f rest]

theorem values_map {W : Type} (f : V → W) (m : SortedFrom V lo) :
    (m.map fun _ v => f v).values = m.values.map f := by
  rw [values, values, toList_map, List.map_map, List.map_map]
  rfl

theorem map_map {W X : Type} (f : String → V → W) (g : String → W → X) (m : SortedFrom V lo) :
    (m.map f).map g = m.map fun name v => g name (f name v) := by
  refine ext fun key => ?_
  simp only [find?_map, Option.map_map]
  rfl

theorem map_id (m : SortedFrom V lo) : m.map (fun _ v => v) = m := by
  refine ext fun key => ?_
  rw [find?_map, Option.map_id']

/-! ## Overlays -/

theorem find?_foldl_insert (key : String) : {lo : Option String} → (n : SortedFrom V lo) →
    (m : NameMap V) → (n.toList.foldl (fun acc e => insert acc e.1 e.2) m).find? key =
      (n.find? key).or (m.find? key)
  | _, .nil, _ => rfl
  | _, .cons name _ v rest, m => by
    rw [toList, List.foldl_cons, find?_foldl_insert key rest, find?_insert]
    by_cases h : name = key
    · subst h
      rw [find?_cons_self, find?_eq_none_of_le rest (String.le_refl name), if_pos rfl]
      rfl
    · rw [find?_cons_of_ne h, if_neg h]

theorem find?_overlay (m n : NameMap V) (key : String) :
    (overlay m n).find? key = (n.find? key).or (m.find? key) :=
  find?_foldl_insert key n m

/-- Entering the entries of a map one by one gives the map. -/
theorem ofList_toList (m : NameMap V) : ofList m.toList = m := by
  refine ext fun key => ?_
  have h := find?_foldl_insert key m .nil
  rw [find?_nil, Option.or_none] at h
  exact h

theorem find?_ofList (es : List (String × V)) (key : String) :
    (ofList es).find? key = es.reverse.lookup key := by
  -- a later entry replaces an earlier one, and entries that were there before come last
  have hfold : ∀ (es : List (String × V)) (m : NameMap V),
      (es.foldl (fun acc e => insert acc e.1 e.2) m).find? key =
        (es.reverse.lookup key).or (m.find? key) := by
    intro es
    induction es with
    | nil => exact fun m => rfl
    | cons e es ih =>
      obtain ⟨name, v⟩ := e
      intro m
      rw [List.foldl_cons, ih, find?_insert, List.reverse_cons, List.lookup_append, Option.or_assoc,
        List.lookup_cons, List.lookup_nil]
      by_cases h : name = key
      · simp [h]
      · have hbeq : (key == name) = false := beq_false_of_ne (Ne.symm h)
        simp [h, hbeq]
  rw [ofList, hfold, find?_nil, Option.or_none]

theorem find?_ofList_singleton (name : String) (v : V) (key : String) :
    (ofList [(name, v)]).find? key = if name = key then some v else none :=
  find?_insert .nil name v key

/-! ## Lists of what the entries give -/

variable {W : Type}

theorem length_flatMap_insertAbove_le (key : String) (v : V) (f : String × V → List W) :
    {lo : Option String} → (above : Above lo key) → (m : SortedFrom V lo) →
    ((m.insertAbove key v above).toList.flatMap f).length ≤
      (m.toList.flatMap f).length + (f (key, v)).length
  | _, _, .nil => by simp [insertAbove, toList]
  | _, above, .cons name above' old rest => by
    unfold insertAbove
    split
    · simp only [toList, List.flatMap_cons, List.length_append]
      omega
    · split
      · next same =>
        subst same
        simp only [toList, List.flatMap_cons, List.length_append]
        omega
      · next before same =>
        have hafter : Above (some name) key :=
          Std.lt_of_le_of_ne (String.not_lt.1 before) same
        have hrest := length_flatMap_insertAbove_le key v f hafter rest
        simp only [toList, List.flatMap_cons, List.length_append]
        omega

/-- An entry adds what it gives itself at most, and takes away what the entry gave that it replaces. -/
theorem length_flatMap_insert_le (m : NameMap V) (key : String) (v : V) (f : String × V → List W) :
    ((m.insert key v).toList.flatMap f).length ≤
      (m.toList.flatMap f).length + (f (key, v)).length :=
  @length_flatMap_insertAbove_le V W key v f none trivial m

end SortedFrom

end ChannelConfig
