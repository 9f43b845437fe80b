import ChannelConfig.Proofs.Value.Standard
import ChannelConfig.Proofs.Wire.Settle

/-! The names of well-known values. A name fixes what is read under it (`ReadsAs`), so a value that
was read has that name and is read again from what it is written as; under any other name nothing is
read. -/

set_option autoImplicit false

namespace ChannelConfig.StandardValue

open Wire

/-- The names that the network knows. -/
def names : List String := [
  "HashingAlgorithm", "BlockDataHashingStructure", "OrdererAddresses", "Consortium",
  "Capabilities", "BatchSize", "BatchTimeout", "ChannelRestrictions", "ConsensusType",
  "KafkaBrokers", "MSP", "AnchorPeers", "Endpoints", "ACLs", "ChannelCreationPolicy"]

/-! ## Payloads -/

/-- Under the name stands a message of type `M`, of which `f` makes the value. -/
structure ReadsAs {M : Type} [Message M] (name : String) (f : M → StandardValue) : Prop where
  key_eq : ∀ m, (f m).key = name
  encode_eq : ∀ m, (f m).encode = Wire.encode m
  decode_eq : ∀ bs, decode name bs = (Result.ofDecode (Wire.decode bs)).map f

/-- Something is read under the name. -/
def IsRead (name : String) : Prop :=
  ∃ (M : Type) (_ : Message M) (_ : LawfulMessage M) (_ : SettlingMessage M)
    (f : M → StandardValue), ReadsAs name f

theorem isRead_of_mem {name : String} (h : name ∈ names) : IsRead name := by
  have hread : ∀ {M : Type} [Message M] [LawfulMessage M] [SettlingMessage M]
      (f : M → StandardValue), ReadsAs name f → IsRead name :=
    fun {M} _ _ _ f hf => ⟨M, _, inferInstance, inferInstance, f, hf⟩
  simp only [names, List.mem_cons, List.not_mem_nil, or_false] at h
  rcases h with rfl | rfl | rfl | rfl | rfl | rfl | rfl | rfl | rfl | rfl | rfl | rfl | rfl | rfl | rfl
  · exact hread hashingAlgorithm ⟨fun _ => rfl, fun _ => rfl, fun _ => rfl⟩
  · exact hread blockDataHashingStructure ⟨fun _ => rfl, fun _ => rfl, fun _ => rfl⟩
  · exact hread ordererAddresses ⟨fun _ => rfl, fun _ => rfl, fun _ => rfl⟩
  · exact hread consortium ⟨fun _ => rfl, fun _ => rfl, fun _ => rfl⟩
  · exact hread capabilities ⟨fun _ => rfl, fun _ => rfl, fun _ => rfl⟩
  · exact hread batchSize ⟨fun _ => rfl, fun _ => rfl, fun _ => rfl⟩
  · exact hread batchTimeout ⟨fun _ => rfl, fun _ => rfl, fun _ => rfl⟩
  · exact hread channelRestrictions ⟨fun _ => rfl, fun _ => rfl, fun _ => rfl⟩
  · exact hread consensusType ⟨fun _ => rfl, fun _ => rfl, fun _ => rfl⟩
  · exact hread kafkaBrokers ⟨fun _ => rfl, fun _ => rfl, fun _ => rfl⟩
  · exact hread msp ⟨fun _ => rfl, fun _ => rfl, fun _ => rfl⟩
  · exact hread anchorPeers ⟨fun _ => rfl, fun _ => rfl, fun _ => rfl⟩
  · exact hread endpoints ⟨fun _ => rfl, fun _ => rfl, fun _ => rfl⟩
  · exact hread acls ⟨fun _ => rfl, fun _ => rfl, fun _ => rfl⟩
  · exact hread channelCreationPolicy ⟨fun _ => rfl, fun _ => rfl, fun _ => rfl⟩

theorem decode_of_not_mem {name : String} (h : name ∉ names) (bs : Bytes) :
    decode name bs = .invalid (.unknownValue name) := by
  unfold decode
  split
  all_goals first | rfl | exact absurd (by decide) h

/-! ## Reading -/

section

variable {M : Type} [Message M] {name : String} {f : M → StandardValue} {bs : Bytes}

/-- A payload that cannot be read is no fault of the name. -/
theorem ReadsAs.ne_validation (h : ReadsAs name f) (trail : List Place) (cause : Invalid) :
    decode name bs ≠ .error (.validation trail cause) := by
  rw [h.decode_eq]
  cases (Wire.decode bs : Except DecodeError M) with
  | error e => nofun
  | ok m => nofun

theorem ReadsAs.exists_of_decode (h : ReadsAs name f) {v : StandardValue}
    (hv : decode name bs = .ok v) : ∃ m, Wire.decode bs = .ok m ∧ f m = v := by
  rw [h.decode_eq] at hv
  obtain ⟨m, hm, rfl⟩ := exists_of_map_eq_ok hv
  exact ⟨m, eq_ok_of_mapError hm, rfl⟩

variable [LawfulMessage M] [SettlingMessage M]

theorem ReadsAs.settles (h : ReadsAs name f) {v : StandardValue} (hv : decode name bs = .ok v)
    (hlength : bs.length < 9223372036854775808) : decode name v.encode = .ok v := by
  obtain ⟨m, hm, rfl⟩ := h.exists_of_decode hv
  rw [h.encode_eq, h.decode_eq, decode_encode_of_decode hlength hm]
  rfl

end

theorem decode_eq_validation_iff (name : String) (bs : Bytes) :
    (∃ trail cause, decode name bs = .error (.validation trail cause)) ↔ name ∉ names := by
  constructor
  · rintro ⟨trail, cause, h⟩ hmem
    obtain ⟨M, _, _, _, f, hf⟩ := isRead_of_mem hmem
    exact hf.ne_validation trail cause h
  · intro h
    exact ⟨[], .unknownValue name, decode_of_not_mem h bs⟩

theorem mem_names_of_decode {name : String} {bs : Bytes} {v : StandardValue}
    (h : decode name bs = .ok v) : name ∈ names := by
  refine Decidable.byContradiction fun hmem => ?_
  rw [decode_of_not_mem hmem] at h
  cases h

theorem of_decode {name : String} {bs : Bytes} {v : StandardValue} (h : decode name bs = .ok v) :
    v.key = name ∧ (bs.length < 9223372036854775808 → decode name v.encode = .ok v) := by
  obtain ⟨M, _, _, _, f, hf⟩ := isRead_of_mem (mem_names_of_decode h)
  refine ⟨?_, hf.settles h⟩
  obtain ⟨m, -, rfl⟩ := hf.exists_of_decode h
  exact hf.key_eq m

/-! ## Values in a group -/

/-- A value in a group stands under its name, and nothing else in the group is touched. -/
theorem find?_values_addTo (v : StandardValue) (g : Group) (modPolicy name : String) :
    (v.addTo g modPolicy).values.find? name =
      if v.key = name then some { content := v.encode, modPolicy } else g.values.find? name :=
  SortedFrom.find?_insert ..

/-- A value is read back under its own name, alone and from a group that it was put in, where it
stands next to what the group had. Only the fifteen names are read, and what is read under one is a
value of that name that reads back too. The bounds are those of a length on the wire and of memory. -/
theorem decode_under_own_name :
    (∀ v : StandardValue, v.encode.length < UInt64.size →
      decode v.key v.encode = .ok v ∧
      ∀ (g : Group) (modPolicy : String),
        (∃ leaf, (v.addTo g modPolicy).values.find? v.key = some leaf ∧ leaf.version = 0 ∧
          leaf.modPolicy = modPolicy ∧ decode v.key leaf.content = .ok v) ∧
        (∀ name, name ≠ v.key →
          (v.addTo g modPolicy).values.find? name = g.values.find? name) ∧
        { v.addTo g modPolicy with values := g.values } = g) ∧
    ∀ (name : String) (bs : Bytes),
      ((∃ trail cause, decode name bs = .error (.validation trail cause)) ↔ name ∉ names) ∧
      ∀ v, decode name bs = .ok v →
        v.key = name ∧ (bs.length < 9223372036854775808 → decode name v.encode = .ok v) := by
  refine ⟨fun v hlength => ?_, fun name bs => ⟨decode_eq_validation_iff name bs, fun v => of_decode⟩⟩
  have hback := decode_encode v hlength
  refine ⟨hback, fun g modPolicy => ⟨?_, fun name hname => ?_, ?_⟩⟩
  · refine ⟨{ content := v.encode, modPolicy }, ?_, rfl, rfl, hback⟩
    rw [find?_values_addTo, if_pos rfl]
  · rw [find?_values_addTo, if_neg hname.symm]
  · cases g
    rfl

/-- A group with capabilities of an earlier version and a setting that the network does not know. -/
def agedGroup : Group :=
  { version := 3
    values := SortedFrom.ofList [
      ("Capabilities", { version := 7, content := [0xff] }), ("Rate", { content := [1] })] }

/-- A set of two capabilities, one of them without a name. -/
def twoCapabilities : StandardValue := ofCapabilities ["V2_0", ""]

/-- The two capabilities, the named one twice, and a field that no payload has. -/
def strayCapabilities : Bytes :=
  [0x0a, 0x06, 0x0a, 0x04, 0x56, 0x32, 0x5f, 0x30, 0x78, 0x01, 0x0a, 0x00,
   0x0a, 0x06, 0x0a, 0x04, 0x56, 0x32, 0x5f, 0x30]

theorem decode_under_own_name_capabilities :
    (twoCapabilities.encode.length < UInt64.size ∧
      decode "Capabilities" twoCapabilities.encode = .ok twoCapabilities ∧
      (∃ leaf, (twoCapabilities.addTo agedGroup "Admins").values.find? "Capabilities" = some leaf ∧
        leaf.version = 0 ∧ leaf.modPolicy = "Admins" ∧
        decode "Capabilities" leaf.content = .ok twoCapabilities) ∧
      (twoCapabilities.addTo agedGroup "Admins").values.find? "Rate" = some { content := [1] } ∧
      (twoCapabilities.addTo agedGroup "Admins").version = 3) ∧
    ("Rate" ∉ names ∧ ∃ trail cause, decode "Rate" [1] = .error (.validation trail cause)) ∧
    (decode "Capabilities" strayCapabilities = .ok twoCapabilities ∧
      twoCapabilities.encode ≠ strayCapabilities ∧ twoCapabilities.key = "Capabilities" ∧
      decode "Capabilities" twoCapabilities.encode = .ok twoCapabilities) := by
  have hlength : twoCapabilities.encode.length < UInt64.size := by decide +kernel
  obtain ⟨hback, hstands⟩ := decode_under_own_name.1 twoCapabilities hlength
  obtain ⟨hown, hother, hrest⟩ := hstands agedGroup "Admins"
  have hrate : "Rate" ∉ names := by decide
  have hstray : decode "Capabilities" strayCapabilities = .ok twoCapabilities :=
    eq_ok_of_toOption (by decide +kernel)
  obtain ⟨hkey, hagain⟩ := (decode_under_own_name.2 "Capabilities" strayCapabilities).2 _ hstray
  refine ⟨⟨hlength, hback, hown, ?_, ?_⟩, ⟨hrate, ?_⟩, hstray, by decide +kernel, hkey, ?_⟩
  · exact (hother "Rate" (by decide)).trans (by decide +kernel)
  · exact congrArg Group.version hrest
  · exact (decode_under_own_name.2 "Rate" [1]).1.2 hrate
  · exact hagain (by decide)

end ChannelConfig.StandardValue
