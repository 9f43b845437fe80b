import ChannelConfig.Profile.Resolve
import ChannelConfig.Proofs.NameMap
import ChannelConfig.Proofs.Result

/-! What a resolved profile is (`ProfileDocument.profile_eq`). The first reference to no shared
organization, in the order of sections, is the error; without such a reference every organization
stands where it stood, a reference replaced by its definition. -/

set_option autoImplicit false

namespace ChannelConfig

/-! ## One fault after the other -/

theorem findSome?_flatMap {A B C : Type} (f : A → List B) (g : B → Option C) (as : List A) :
    (as.flatMap f).findSome? g = as.findSome? fun a => (f a).findSome? g := by
  induction as with
  | nil => rfl
  | cons a as ih =>
    rw [List.flatMap_cons, List.findSome?_append, List.findSome?_cons, ih]
    cases (f a).findSome? g <;> rfl

namespace Result

variable {A B : Type}

/-- The value, unless there is a fault. -/
def orFault (fault : Option ConfigError) (a : A) : Result A :=
  match fault with
  | some e => .error e
  | none => .ok a

theorem orFault_bind {first second : Option ConfigError} {a : A} {b : B} {f : A → Result B}
    (h : f a = orFault second b) : (orFault first a >>= f) = orFault (first.or second) b := by
  cases first with
  | some e => rfl
  | none => exact h

theorem orFault_return (fault : Option ConfigError) (a : A) (f : A → B) :
    (do return f (← orFault fault a) : Result B) = orFault fault (f a) := by
  cases fault <;> rfl

variable {fault : A → Option ConfigError} {f : A → Result B} {g : A → B}

theorem mapM_orFault (h : ∀ a, f a = orFault (fault a) (g a)) (as : List A) :
    as.mapM f = orFault (as.findSome? fault) (as.map g) := by
  induction as with
  | nil => rfl
  | cons a as ih =>
    rw [List.mapM_cons, h, ih, List.findSome?_cons, List.map_cons]
    cases fault a with
    | some e => rfl
    | none => exact orFault_return _ _ (g a :: ·)

theorem option_mapM_orFault (h : ∀ a, f a = orFault (fault a) (g a)) (a? : Option A) :
    a?.mapM f = orFault (a?.bind fault) (a?.map g) := by
  cases a? with
  | none => rfl
  | some a =>
    show (do return some (← f a)) = orFault (fault a) (some (g a))
    rw [h, orFault_return]

theorem sorted_mapM_orFault (h : ∀ a, f a = orFault (fault a) (g a)) : {lo : Option String} →
    (m : SortedFrom A lo) → m.mapM f = orFault (m.values.findSome? fault) (m.map fun _ a => g a)
  | _, .nil => rfl
  | _, .cons name above a rest => by
    have hrest := sorted_mapM_orFault h rest
    rw [SortedFrom.mapM, h, hrest, SortedFrom.map]
    show _ = orFault (List.findSome? fault (a :: rest.values)) _
    rw [List.findSome?_cons]
    cases fault a with
    | some e => rfl
    | none => exact orFault_return _ _ (SortedFrom.cons name above (g a))

end Result

/-! ## Organizations of a profile -/

namespace Profile

/-- The profile with every organization replaced where it stands. -/
def mapOrganizations (f : Organization → Organization) (p : Profile) : Profile :=
  { p with
    orderer := p.orderer.map fun s => { s with organizations := s.organizations.map f }
    application := p.application.map fun s => { s with organizations := s.organizations.map f }
    consortiums := p.consortiums.map fun m => m.map fun _ s =>
      { s with organizations := s.organizations.map f } }

theorem allOrganizations_mapOrganizations (f : Organization → Organization) (p : Profile) :
    (p.mapOrganizations f).allOrganizations = p.allOrganizations.map f := by
  obtain ⟨_, application, orderer, consortiums, _, _⟩ := p
  have hconsortiums : ((consortiums.map fun m => m.map fun _ (s : ConsortiumSection) =>
        { s with organizations := s.organizations.map f }).map fun m =>
          m.values.flatMap (·.organizations)).getD [] =
      ((consortiums.map fun m => m.values.flatMap (·.organizations)).getD []).map f := by
    cases consortiums with
    | none => rfl
    | some m =>
      simp only [Option.map_some, Option.getD_some, SortedFrom.values_map, List.flatMap_map,
        List.map_flatMap]
  rw [allOrganizations, allOrganizations, List.map_append, List.map_append, ← hconsortiums]
  cases orderer <;> cases application <;> rfl

theorem mapOrganizations_mapOrganizations (f g : Organization → Organization) (p : Profile) :
    (p.mapOrganizations f).mapOrganizations g = p.mapOrganizations (g ∘ f) := by
  simp only [mapOrganizations, Option.map_map, Function.comp_def, List.map_map, SortedFrom.map_map]

/-- The faults of a profile's organizations are those of its sections. -/
theorem findSome?_allOrganizations (fault : Organization → Option ConfigError) (p : Profile) :
    p.allOrganizations.findSome? fault =
      (p.orderer.bind fun s => s.organizations.findSome? fault).or
        ((p.application.bind fun s => s.organizations.findSome? fault).or
          (p.consortiums.bind fun m => m.values.findSome? fun s =>
            s.organizations.findSome? fault)) := by
  have hconsortiums : ((p.consortiums.map fun m =>
        m.values.flatMap (·.organizations)).getD []).findSome? fault =
      p.consortiums.bind fun m => m.values.findSome? fun s => s.organizations.findSome? fault := by
    cases p.consortiums with
    | none => rfl
    | some m => exact findSome?_flatMap ..
  rw [allOrganizations, List.findSome?_append, List.findSome?_append, hconsortiums, Option.or_assoc]
  cases p.orderer <;> cases p.application <;> rfl

/-- Every organization is looked at in its turn, until one is at fault. -/
theorem mapOrganizationsM_eq {f : Organization → Result Organization}
    {fault : Organization → Option ConfigError} {g : Organization → Organization}
    (h : ∀ o, f o = Result.orFault (fault o) (g o)) (p : Profile) :
    p.mapOrganizationsM f =
      Result.orFault (p.allOrganizations.findSome? fault) (p.mapOrganizations g) := by
  have hsection : ∀ {S : Type} (replace : List Organization → S) (os : List Organization),
      (do return replace (← os.mapM f) : Result S) =
        Result.orFault (os.findSome? fault) (replace (os.map g)) := by
    intro S replace os
    rw [Result.mapM_orFault h, Result.orFault_return]
  have horderer := Result.option_mapM_orFault (fun s : OrdererSection =>
    hsection (fun organizations => { s with organizations }) s.organizations) p.orderer
  have happlication := Result.option_mapM_orFault (fun s : ApplicationSection =>
    hsection (fun organizations => { s with organizations }) s.organizations) p.application
  have hconsortiums := Result.option_mapM_orFault (Result.sorted_mapM_orFault
    fun s : ConsortiumSection =>
      hsection (fun organizations => { s with organizations }) s.organizations) p.consortiums
  rw [mapOrganizationsM, horderer, happlication, hconsortiums, findSome?_allOrganizations]
  exact Result.orFault_bind (Result.orFault_bind (Result.orFault_return _ _ _))

end Profile

/-! ## References -/

namespace Organization

/-- What an organization stands for: if it is a reference, the first shared organization of its
name, and otherwise itself. -/
def definition (shared : List Organization) (o : Organization) : Organization :=
  if o.reference then (shared.find? (·.name = o.name)).getD o else o

/-- A reference to no shared organization. -/
def Dangling (shared : List Organization) (o : Organization) : Prop :=
  o.reference = true ∧ ∀ s ∈ shared, s.name ≠ o.name

instance (shared : List Organization) (o : Organization) : Decidable (o.Dangling shared) :=
  inferInstanceAs (Decidable (_ ∧ _))

variable {shared : List Organization} {o : Organization}

theorem definition_of_reference (h : o.reference = true) (hdangling : ¬ o.Dangling shared) :
    shared.find? (·.name = o.name) = some (o.definition shared) := by
  cases hfound : shared.find? (·.name = o.name) with
  | some s => rw [definition, if_pos h, hfound, Option.getD_some]
  | none =>
    rw [List.find?_eq_none] at hfound
    exact absurd ⟨h, fun s hs hname => hfound s hs (decide_eq_true hname)⟩ hdangling

theorem definition_of_inline (h : o.reference = false) : o.definition shared = o := by
  rw [definition, h, if_neg Bool.false_ne_true]

/-- The error of a reference that is dangling. -/
def fault (shared : List Organization) (profile : String) (o : Organization) : Option ConfigError :=
  if o.Dangling shared then some (.validation [] (.unknownOrganization profile o.name)) else none

theorem resolve_eq (shared : List Organization) (profile : String) (o : Organization) :
    o.resolve shared profile = .orFault (o.fault shared profile) (o.definition shared) := by
  rw [resolve, fault]
  cases href : o.reference with
  | false =>
    have hinline : ¬ o.Dangling shared := fun h => Bool.false_ne_true (href.symm.trans h.1)
    rw [if_neg hinline, definition_of_inline href]
    rfl
  | true =>
    by_cases hdangling : o.Dangling shared
    · have hnone : shared.find? (·.name = o.name) = none :=
        List.find?_eq_none.2 fun s hs hname => hdangling.2 s hs (of_decide_eq_true hname)
      rw [if_pos hdangling, hnone]
      rfl
    · rw [if_neg hdangling, definition_of_reference href hdangling]
      rfl

/-- The first fault is that of the first dangling reference. -/
theorem findSome?_fault (shared : List Organization) (profile : String) (os : List Organization) :
    os.findSome? (fault shared profile) = (os.find? (·.Dangling shared)).map fun o =>
      .validation [] (.unknownOrganization profile o.name) := by
  induction os with
  | nil => rfl
  | cons o os ih =>
    rw [List.findSome?_cons, List.find?_cons, ih, fault]
    by_cases hdangling : o.Dangling shared
    · rw [if_pos hdangling, decide_eq_true hdangling]
      rfl
    · rw [if_neg hdangling, decide_eq_false hdangling]

end Organization

/-! ## Resolved profiles -/

namespace ProfileDocument

variable {d : ProfileDocument} {name : String} {p q : Profile}

theorem profile_eq (hp : d.profiles.find? name = some p) :
    d.profile name = .orFault ((p.allOrganizations.find? (·.Dangling d.organizations)).map fun o =>
      .validation [] (.unknownOrganization name o.name))
      (p.mapOrganizations (·.definition d.organizations)) := by
  rw [profile, hp]
  exact (Profile.mapOrganizationsM_eq (Organization.resolve_eq d.organizations name) p).trans
    (congrArg (Result.orFault · _) (Organization.findSome?_fault ..))

theorem profile_eq_ok_iff :
    d.profile name = .ok q ↔ ∃ p, d.profiles.find? name = some p ∧
      (∀ o ∈ p.allOrganizations, ¬ o.Dangling d.organizations) ∧
      q = p.mapOrganizations (·.definition d.organizations) := by
  cases hp : d.profiles.find? name with
  | none =>
    rw [profile, hp]
    refine ⟨nofun, ?_⟩
    rintro ⟨p, hp', -⟩
    cases hp'
  | some p =>
    rw [profile_eq hp]
    cases hfind : p.allOrganizations.find? (·.Dangling d.organizations) with
    | none =>
      have hnone : ∀ o ∈ p.allOrganizations, ¬ o.Dangling d.organizations := fun o ho hdangling =>
        List.find?_eq_none.1 hfind o ho (decide_eq_true hdangling)
      constructor
      · intro h
        cases h
        exact ⟨p, rfl, hnone, rfl⟩
      · rintro ⟨p', hp', -, rfl⟩
        cases hp'
        rfl
    | some o =>
      refine ⟨nofun, ?_⟩
      rintro ⟨p', hp', hnone, -⟩
      cases hp'
      have hdangling := List.find?_some hfind
      exact absurd (of_decide_eq_true hdangling) (hnone o (List.mem_of_find?_eq_some hfind))

theorem profile_eq_error_iff {e : ConfigError} :
    d.profile name = .error e ↔
      (d.profiles.find? name = none ∧ e = .validation [] (.profileNotFound name)) ∨
      ∃ p o, d.profiles.find? name = some p ∧
        p.allOrganizations.find? (·.Dangling d.organizations) = some o ∧
        e = .validation [] (.unknownOrganization name o.name) := by
  cases hp : d.profiles.find? name with
  | none =>
    rw [profile, hp]
    constructor
    · intro h
      cases h
      exact .inl ⟨rfl, rfl⟩
    · rintro (⟨-, rfl⟩ | ⟨p, o, hp', -⟩)
      · rfl
      · cases hp'
  | some p =>
    rw [profile_eq hp]
    cases hfind : p.allOrganizations.find? (·.Dangling d.organizations) with
    | none =>
      refine ⟨nofun, ?_⟩
      rintro (⟨hp', -⟩ | ⟨p', o, hp', ho, -⟩)
      · cases hp'
      · cases hp'
        cases hfind.symm.trans ho
    | some o =>
      constructor
      · intro h
        cases h
        exact .inr ⟨p, o, rfl, hfind, rfl⟩
      · rintro (⟨hp', -⟩ | ⟨p', o', hp', ho', rfl⟩)
        · cases hp'
        · cases hp'
          cases hfind.symm.trans ho'
          rfl

end ProfileDocument

end ChannelConfig
