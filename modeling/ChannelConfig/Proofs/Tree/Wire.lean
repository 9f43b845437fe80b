import ChannelConfig.Proofs.Policy.Rule
import ChannelConfig.Proofs.Tree.Group

/-! Groups on the wire. As with rules, `merge_eq` unties the recursion of reading, and every group
reads back by induction over the tree. -/

set_option autoImplicit false

namespace ChannelConfig

open Wire

instance : LawfulMessage Policy :=
  .ofFields rfl (fun _ => rfl) rfl (by simp)

instance : LawfulMessage ConfigValue :=
  .ofFields rfl (fun _ => rfl) rfl (by simp)

instance : LawfulMessage ConfigPolicy :=
  .ofFields rfl (fun _ => rfl) rfl (by simp)

namespace Group

/-- A group as the tuple of its fields. -/
def toTuple (g : Group) :
    UInt64 × NameMap Group × NameMap ConfigValue × NameMap ConfigPolicy × String × Unit :=
  (g.version, g.groups, g.values, g.policies, g.modPolicy, ())

/-- The group of such a tuple. -/
def ofTuple : UInt64 × NameMap Group × NameMap ConfigValue × NameMap ConfigPolicy × String × Unit →
    Group
  | (version, groups, values, policies, modPolicy, _) =>
    { version, groups, values, policies, modPolicy }

theorem ofTuple_toTuple (g : Group) : ofTuple g.toTuple = g := by
  cases g
  rfl

/-! ## Writing -/

theorem toList_encodeMap : {lo : Option String} → (gs : SortedFrom Group lo) →
    (encodeMap gs).toList = gs.toList.map fun (name, g) => (name, g.encode)
  | _, .nil => by rw [encodeMap]; rfl
  | _, .cons name _ g rest => by
    rw [encodeMap, SortedFrom.toList, toList_encodeMap rest]
    rfl

theorem encode_eq (g : Group) : g.encode = (fields (message Group)).encode g.toTuple := by
  obtain ⟨version, groups, values, policies, modPolicy⟩ := g
  have hbodies : (Field.map .bytes).bodies (encodeMap groups) =
      (Field.map (message Group)).bodies groups := by
    simp only [Field.map, toList_encodeMap, List.map_map]
    rfl
  rw [Group.encode]
  simp only [fields, toTuple, Fields.encode, Fields.records, hbodies]

theorem nestingMap_eq : {lo : Option String} → (gs : SortedFrom Group lo) →
    nestingMap gs = gs.toList.foldr
      (fun (name, g) n => max ((Field.entry (message Group)).nesting (name, g, ()) + 1) n) 0
  | _, .nil => by rw [nestingMap]; rfl
  | _, .cons name _ g rest => by
    have hentry : (Field.entry (message Group)).nesting (name, g, ()) =
        max (Field.text.nesting name) (max (if g.encode = [] then 0 else g.nesting + 1) 0) := rfl
    rw [Field.nesting_text, Nat.zero_max, Nat.max_zero] at hentry
    rw [nestingMap, nestingMap_eq rest, ← hentry]
    rfl

theorem nesting_eq (g : Group) : g.nesting = (fields (message Group)).nesting g.toTuple := by
  obtain ⟨version, groups, values, policies, modPolicy⟩ := g
  have hfields : (fields (message Group)).nesting (toTuple ⟨version, groups, values, policies,
      modPolicy⟩) = max 0 (max ((Field.map (message Group)).nesting groups)
        (max ((Field.map (message ConfigValue)).nesting values)
          (max ((Field.map (message ConfigPolicy)).nesting policies)
            (max (Field.text.nesting modPolicy) 0)))) := rfl
  have hgroups : (Field.map (message Group)).nesting groups = nestingMap groups :=
    (nestingMap_eq groups).symm
  rw [Group.nesting, hfields, hgroups, Field.nesting_text]
  omega

/-! ## Reading -/

theorem mergeWith_congr {c c' : Content Group} {levels : Nat} (hempty : c.empty = c'.empty)
    (h : ∀ left, levels = left + 1 → ∀ t bs, c.merge left t bs = c'.merge left t bs) :
    mergeWith c levels = mergeWith c' levels := by
  have hmap : (Field.map c).absorb levels = (Field.map c').absorb levels := by
    cases levels with
    | zero => rfl
    | succ left =>
      have hsingle : (Field.single c).absorb left = (Field.single c').absorb left := by
        funext t body
        cases body with
        | delimited bs => exact h left rfl t bs
        | varint n => rfl
        | foreign => rfl
      have habsorb : (Field.entry c).absorb left = (Field.entry c').absorb left := by
        funext e record
        obtain ⟨name, v, _⟩ := e
        simp only [Field.entry, Fields.absorb, hsingle]
      have hentry : (Field.entry c).empty = (Field.entry c').empty :=
        congrArg (fun v => ("", v, ())) hempty
      funext m body
      simp only [Field.map, Fields.merge, habsorb, hentry]
      rfl
  have habsorb : (fields c).absorb levels = (fields c').absorb levels := by
    funext tuple record
    obtain ⟨version, groups, values, policies, modPolicy, _⟩ := tuple
    simp only [fields, Fields.absorb, hmap]
  funext g bs
  simp only [mergeWith, Fields.merge, habsorb]
  rfl

theorem merge_eq (levels : Nat) : Group.merge levels = mergeWith (message Group) levels := by
  -- with one level an entry may be read, but no group in it: both readings fail there
  match levels with
  | 0 =>
    rw [Group.merge]
    · exact mergeWith_congr rfl nofun
    · exact nofun
  | 1 =>
    rw [Group.merge]
    · refine mergeWith_congr rfl fun left hleft t bs => ?_
      obtain rfl : left = 0 := by omega
      rfl
    · omega
  | levels + 2 =>
    rw [Group.merge]
    refine mergeWith_congr rfl fun left hleft t bs => ?_
    obtain rfl : left = levels + 1 := by omega
    rfl

/-! ## Reading back -/

theorem wellFormed_fields : (fields (message Group)).WellFormed :=
  ⟨Field.lawful_uint64.sound, by decide, by simp, Field.sound_map _,
    by decide, by simp, Field.sound_map _, by decide, by simp,
    Field.sound_map _, by decide, by simp, Field.lawful_text.sound, by decide,
    by simp, trivial⟩

theorem encode_empty : Group.encode {} = [] := by
  rw [encode_eq]
  exact Fields.encode_empty wellFormed_fields

/-- The fields of a group read back if its child groups do. -/
theorem readsBack_fields {g : Group}
    (h : ∀ name child, g.groups.find? name = some child → (message Group).ReadsBack child) :
    (fields (message Group)).ReadsBack g.toTuple := by
  have hgroups : (Field.map (message Group)).ReadsBack g.groups :=
    Field.readsBack_map encode_empty fun e he => h e.1 e.2 ((SortedFrom.find?_eq_some_iff _).2 he)
  exact ⟨Field.lawful_uint64.readsBack _, hgroups, Field.lawful_map_message.readsBack _,
    Field.lawful_map_message.readsBack _, Field.lawful_text.readsBack _, trivial⟩

theorem readsBack (g : Group) : (Message.codec (M := Group)).ReadsBack g := by
  induction g using ind with
  | step g ih =>
    have hfields := readsBack_fields fun name child hchild => (ih name child hchild).content
    constructor
    · intro h levels
      have hlength : ((fields (message Group)).encode g.toTuple).length < UInt64.size :=
        encode_eq g ▸ h
      show Group.merge levels {} g.encode = within levels g.nesting g
      rw [merge_eq, encode_eq, nesting_eq]
      show ((fields (message Group)).merge levels (fields (message Group)).empty _).map ofTuple = _
      rw [Fields.merge_encode wellFormed_fields hfields hlength, map_within, ofTuple_toTuple]
    · intro g' he
      have he' : g.encode = g'.encode := he
      rw [encode_eq, encode_eq] at he'
      have htuple := Fields.encode_injective wellFormed_fields hfields _ he'
      rw [← ofTuple_toTuple g, htuple, ofTuple_toTuple]

instance : LawfulMessage Group := ⟨encode_empty, readsBack⟩

end Group

end ChannelConfig
