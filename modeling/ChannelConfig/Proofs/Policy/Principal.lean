import ChannelConfig.Proofs.Policy.Token
import ChannelConfig.Proofs.Wire.Kinds
import ChannelConfig.Policy.Expression

/-! Principals as texts and as messages. Both ways back give the principal, the text for MSP ids
that expressions may name, the message for those short enough to be held in memory. -/

set_option autoImplicit false

namespace ChannelConfig

open Policy Wire

/-- The MSP id is one that expressions may name. -/
def Principal.Named (p : Principal) : Prop :=
  p.mspId ≠ "" ∧ p.mspId.toList.all Expression.isMspIdChar = true

instance (p : Principal) : Decidable p.Named := inferInstanceAs (Decidable (_ ∧ _))

theorem Principal.Named.quote_notMem {p : Principal} (h : p.Named) : '\'' ∉ p.mspId.toList := by
  intro hmem
  have := List.all_eq_true.1 h.2 _ hmem
  revert this
  decide

namespace Policy.Expression

/-! ## Texts -/

theorem splitLastPoint_append (mspId : List Char) {role : List Char} (h : '.' ∉ role) :
    splitLastPoint (mspId ++ '.' :: role) = some (mspId, role) := by
  have hrun : ∀ c ∈ role.reverse, decide (c ≠ '.') = true := by
    intro c hc
    rw [decide_eq_true_eq]
    rintro rfl
    exact h (List.mem_reverse.1 hc)
  obtain ⟨htake, hdrop⟩ := Text.takeWhile_dropWhile_run hrun '.' (by decide)
    mspId.reverse
  have hreverse : (mspId ++ '.' :: role).reverse = role.reverse ++ '.' :: mspId.reverse := by simp
  rw [splitLastPoint, hreverse, hdrop, htake, List.reverse_reverse]
  show some (mspId.reverse.reverse, role) = _
  rw [List.reverse_reverse]

theorem eq_of_splitLastPoint {text mspId role : List Char}
    (h : splitLastPoint text = some (mspId, role)) : text = mspId ++ '.' :: role := by
  rw [splitLastPoint] at h
  split at h
  · cases h
  · next stop before hdrop =>
    cases h
    have hstop := List.head?_dropWhile_not (fun c => decide (c ≠ '.')) text.reverse
    have hparts : text.reverse.takeWhile (· ≠ '.') ++ text.reverse.dropWhile (· ≠ '.') =
        text.reverse := List.takeWhile_append_dropWhile
    rw [hdrop] at hstop hparts
    have hpoint : stop = '.' := by simpa using hstop
    have htext := congrArg List.reverse hparts
    rw [List.reverse_reverse, hpoint, List.reverse_append, List.reverse_cons,
      List.append_assoc] at htext
    exact htext.symm

theorem ofName?_eq_some_iff {name : List Char} {r : Role} :
    Role.ofName? name = some r ↔ name.map Char.toLower = r.name.toList := by
  constructor
  · intro h
    have := List.find?_some h
    simpa [eq_comm] using this
  · intro h
    rw [Role.ofName?, h]
    cases r <;> decide

/-- Texts of a principal are its MSP id, a point and its role in any case. -/
theorem parsePrincipal_eq_ok_iff {text : String} {p : Principal} :
    parsePrincipal text = .ok p ↔
      p.Named ∧ ∃ role, role.map Char.toLower = p.role.name.toList ∧
        text.toList = p.mspId.toList ++ '.' :: role := by
  constructor
  · intro h
    rw [parsePrincipal] at h
    split at h
    · cases h
    · next mspId role hsplit =>
      split at h
      · cases h
      · next hchars =>
        split at h
        · next r hr =>
          cases h
          rw [Bool.or_eq_true, not_or, Bool.not_eq_true', Bool.not_eq_false, List.isEmpty_iff]
            at hchars
          have hid : (String.ofList mspId).toList = mspId := String.toList_ofList
          refine ⟨⟨fun hempty => hchars.1 (String.ofList_eq_empty_iff.1 hempty), ?_⟩, role,
            ofName?_eq_some_iff.1 hr, ?_⟩
          · rw [hid]
            exact hchars.2
          · rw [hid]
            exact eq_of_splitLastPoint hsplit
        · cases h
  · rintro ⟨⟨hne, hall⟩, role, hrole, htext⟩
    -- no role has a point in its name, in either case
    have hpoint : '.' ∉ role := by
      intro hmem
      have : '.' ∈ p.role.name.toList := hrole ▸ List.mem_map_of_mem (f := Char.toLower) hmem
      revert this
      cases p.role <;> decide
    have hchars : (p.mspId.toList.isEmpty || !p.mspId.toList.all isMspIdChar) = false := by
      have hnil : p.mspId.toList ≠ [] := fun h => hne (String.toList_eq_nil_iff.1 h)
      rw [hall, Bool.not_true, Bool.or_false]
      simpa using hnil
    rw [parsePrincipal, htext, splitLastPoint_append _ hpoint]
    simp only [hchars, Bool.false_eq_true, if_false, ofName?_eq_some_iff.2 hrole,
      String.ofList_toList]

theorem parsePrincipal_text {p : Principal} (h : p.Named) : parsePrincipal p.text = .ok p := by
  have hlower : p.role.name.toList.map Char.toLower = p.role.name.toList := by
    cases p.role <;> decide
  refine parsePrincipal_eq_ok_iff.2 ⟨h, p.role.name.toList, hlower, ?_⟩
  rw [Principal.text, String.toList_append, String.toList_append, List.append_assoc]
  rfl

/-- The text of a principal is read as no other. -/
theorem eq_of_parsePrincipal_text {p q : Principal} (h : parsePrincipal p.text = .ok q) : q = p := by
  obtain ⟨-, role, hrole, htext⟩ := parsePrincipal_eq_ok_iff.1 h
  have hpoint : ∀ r : Role, '.' ∉ r.name.toList := by
    intro r
    cases r <;> decide
  have hpoint' : '.' ∉ role := fun hmem =>
    hpoint q.role (hrole ▸ List.mem_map_of_mem (f := Char.toLower) hmem)
  have hparts : p.text.toList = p.mspId.toList ++ '.' :: p.role.name.toList := by
    rw [Principal.text, String.toList_append, String.toList_append, List.append_assoc]
    rfl
  have hsplit := splitLastPoint_append p.mspId.toList (hpoint p.role)
  rw [← hparts, htext, splitLastPoint_append _ hpoint', Option.some.injEq, Prod.mk.injEq] at hsplit
  obtain ⟨hid, hname⟩ := hsplit
  have hlower : role.map Char.toLower = p.role.name.toList := by
    rw [hname]
    cases p.role <;> decide
  have hsame : q.role = p.role :=
    Option.some.inj ((ofName?_eq_some_iff.2 hrole).symm.trans (ofName?_eq_some_iff.2 hlower))
  cases p
  cases q
  rw [Principal.mk.injEq]
  exact ⟨String.toList_inj.1 hid, hsame⟩

theorem named_of_parsePrincipal {text : String} {p : Principal} (h : parsePrincipal text = .ok p) :
    p.Named ∧ p.mspId.length ≤ text.length := by
  obtain ⟨hnamed, role, -, htext⟩ := parsePrincipal_eq_ok_iff.1 h
  have hlength := congrArg List.length htext
  rw [List.length_append, String.length_toList, String.length_toList] at hlength
  exact ⟨hnamed, by omega⟩

end Policy.Expression

/-! ## Messages -/

namespace Principal

/-- The characters of MSP ids are ASCII. -/
theorem utf8Size_of_isMspIdChar {c : Char} (h : Expression.isMspIdChar c = true) :
    c.utf8Size = 1 := by
  change ((((decide (c.val ≥ 'A'.val ∧ c.val ≤ 'Z'.val) ||
    (decide (c.val ≥ 'a'.val) && decide (c.val ≤ 'z'.val))) ||
    (decide (c.val ≥ '0'.val) && decide (c.val ≤ '9'.val))) || decide (c = '.')) ||
    decide (c = '-')) = true at h
  rw [Char.utf8Size_eq_one_iff]
  simp only [Bool.or_eq_true, Bool.and_eq_true, decide_eq_true_eq, UInt32.le_iff_toNat_le] at h ⊢
  rcases h with ((((h | h) | h) | h) | h)
  · exact Nat.le_trans h.2 (by decide)
  · exact Nat.le_trans h.2 (by decide)
  · exact Nat.le_trans h.2 (by decide)
  · rw [h]
    decide
  · rw [h]
    decide

theorem Named.length_ofText {p : Principal} (h : p.Named) :
    (Bytes.ofText p.mspId).length = p.mspId.length := by
  have hsize : ∀ cs : List Char, (∀ c ∈ cs, Expression.isMspIdChar c = true) →
      (String.ofList cs).utf8ByteSize = cs.length := by
    intro cs hcs
    induction cs with
    | nil => rfl
    | cons c cs ih =>
      rw [String.ofList_cons, String.utf8ByteSize_append, String.utf8ByteSize_singleton,
        utf8Size_of_isMspIdChar (hcs c (List.mem_cons_self ..)),
        ih fun d hd => hcs d (List.mem_cons_of_mem c hd), List.length_cons, Nat.add_comm]
  have := hsize p.mspId.toList (List.all_eq_true.1 h.2)
  rw [String.ofList_toList, String.length_toList] at this
  exact this

/-- A principal is little longer on the wire than its MSP id. -/
theorem length_encode_le {p : Principal} (h : p.Named) (hlength : p.mspId.length < UInt64.size) :
    (encode { mspId := p.mspId, role := p.role.number : MspRole }).length ≤
      p.mspId.length + 22 := by
  rw [← h.length_ofText] at hlength ⊢
  have hid : (Field.text.encodeAt 1 p.mspId).length ≤ (Bytes.ofText p.mspId).length + 11 :=
    Field.length_single_le (by decide) hlength
  have hrole := @Field.length_int32_le 2 (by decide) p.role.number
  have hencode : encode { mspId := p.mspId, role := p.role.number : MspRole } =
      Field.text.encodeAt 1 p.mspId ++ (Field.int32.encodeAt 2 p.role.number ++ []) := by
    show (Fields.cons 1 .text <| .cons 2 .int32 .nil).encode (p.mspId, p.role.number, ()) = _
    rw [Fields.encode_cons, Fields.encode_cons, Fields.encode_nil]
  rw [hencode, List.append_nil, List.length_append]
  omega

theorem toMessage_injective {p q : Principal} (h : p.toMessage = q.toMessage) : p = q := by
  have hencode : encode { mspId := p.mspId, role := p.role.number : MspRole } =
      encode { mspId := q.mspId, role := q.role.number : MspRole } :=
    congrArg MspPrincipal.principal h
  have hroles := encode_inj.1 hencode
  rw [MspRole.mk.injEq] at hroles
  have hrole : Role.ofNumber? p.role.number = Role.ofNumber? q.role.number := by rw [hroles.2]
  rw [Role.ofNumber?_number, Role.ofNumber?_number] at hrole
  cases p
  cases q
  rw [Principal.mk.injEq]
  exact ⟨hroles.1, Option.some.inj hrole⟩

theorem ofMessage_toMessage {p : Principal} (h : p.Named)
    (hlength : p.mspId.length < 9223372036854775808) : ofMessage p.toMessage = .ok p := by
  have hshort : (encode { mspId := p.mspId, role := p.role.number : MspRole }).length <
      UInt64.size := by
    have := length_encode_le h (by simp only [UInt64.size]; omega)
    simp only [UInt64.size]
    omega
  have hflat : nesting { mspId := p.mspId, role := p.role.number : MspRole } ≤
      maxLevels := by
    show max (Field.text.nesting p.mspId) 0 ≤ _
    rw [Field.nesting_text]
    decide
  have hdecode := (decode_encode_eq hshort).trans (if_pos hflat)
  have hresult : Result.ofDecode (decode p.toMessage.principal) =
      .ok { mspId := p.mspId, role := p.role.number : MspRole } :=
    congrArg Result.ofDecode hdecode
  have hclass : ¬ p.toMessage.classification ≠ roleClassification := fun hne => hne rfl
  rw [ofMessage, if_neg hclass, hresult]
  simp only [bind, Except.bind, Role.ofNumber?_number]

end Principal

end ChannelConfig
