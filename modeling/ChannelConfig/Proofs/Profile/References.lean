import Mathlib.Data.List.Forall2
import ChannelConfig.Profile.Read
import ChannelConfig.Proofs.Profile.Resolve
import ChannelConfig.Toml.Document

/-! References that stay in a resolved profile. The shared organizations of a document are listed
like those of a section, so one of them may itself be no more than a name, and a reference that finds
it is replaced by that name again (`profile_references`). -/

set_option autoImplicit false

namespace ChannelConfig

/-! ## Organizations as they are read -/

theorem Datum.exists_of_asList {A : Type} {read : Datum → Option A} {d : Datum} {as : List A}
    (h : d.asList read = some as) {a : A} (ha : a ∈ as) : ∃ item, read item = some a := by
  cases d with
  | list items =>
    rw [asList] at h
    induction items generalizing as with
    | nil =>
      cases h
      cases ha
    | cons item items ih =>
      rw [List.mapM_cons] at h
      obtain ⟨first, hfirst, h⟩ := Option.bind_eq_some_iff.1 h
      obtain ⟨rest, hrest, h⟩ := Option.bind_eq_some_iff.1 h
      cases h
      rcases List.mem_cons.1 ha with rfl | ha
      · exact ⟨item, hfirst⟩
      · exact ih ha hrest
  | _ => cases h

namespace Organization

/-- An organization with its definition is no reference. -/
theorem reference_of_ofFields {d : Datum} {o : Organization} (h : ofFields d = some o) :
    o.reference = false := by
  unfold ofFields at h
  simp only [Option.bind_eq_bind, Option.bind_eq_some_iff, Option.pure_def, Option.some.injEq] at h
  obtain ⟨_, _, _, _, _, _, _, _, _, _, _, _, _, _, _, _, _, _, rfl⟩ := h
  rfl

theorem eq_named_of_ofDatum {d : Datum} {o : Organization} (h : ofDatum d = some o)
    (href : o.reference = true) : o = .named o.name := by
  unfold ofDatum at h
  split at h
  · cases h
    rfl
  · rw [reference_of_ofFields h] at href
    cases href

end Organization

namespace ProfileDocument

variable {surplus : Datum.Surplus} {datum : Datum} {d : ProfileDocument}

theorem exists_of_mem_organizations (h : ofDatum surplus datum = some d) {s : Organization}
    (hs : s ∈ d.organizations) : ∃ item, Organization.ofDatum item = some s := by
  unfold ofDatum at h
  simp only [Option.bind_eq_bind, Option.bind_eq_some_iff, Option.pure_def, Option.some.injEq] at h
  obtain ⟨field, -, profiles, -, organizations, horganizations, rfl⟩ := h
  cases hfield : field "organizations" with
  | none =>
    rw [hfield] at horganizations
    cases horganizations
    cases hs
  | some listed =>
    rw [hfield] at horganizations
    exact Datum.exists_of_asList horganizations hs

/-- A shared organization that is a reference is only a name. -/
theorem eq_named_of_mem_organizations (h : ofDatum surplus datum = some d) {s : Organization}
    (hs : s ∈ d.organizations) (href : s.reference = true) : s = .named s.name := by
  obtain ⟨item, hitem⟩ := exists_of_mem_organizations h hs
  exact Organization.eq_named_of_ofDatum hitem href

/-! ## Organizations of a resolved profile -/

/-- A reference whose definition is a reference again has found its own name. -/
theorem definition_eq_named (hread : ofDatum surplus datum = some d) {o : Organization}
    (hdangling : ¬ o.Dangling d.organizations)
    (hleft : (o.definition d.organizations).reference = true) :
    o.reference = true ∧ o.definition d.organizations = .named o.name := by
  cases href : o.reference with
  | false =>
    rw [Organization.definition_of_inline href, href] at hleft
    cases hleft
  | true =>
    have hfound := Organization.definition_of_reference href hdangling
    have hname := List.find?_some hfound
    have hbare := eq_named_of_mem_organizations hread (List.mem_of_find?_eq_some hfound) hleft
    rw [of_decide_eq_true hname] at hbare
    exact ⟨rfl, hbare⟩

variable {name : String} {q : Profile}

/-- An organization of a resolved profile is one that the profile lists itself, or the first shared
one of a name that it refers to. The second kind may be a mere name as well, and there are no
references left exactly if it never is. -/
theorem profile_references (hread : ofDatum surplus datum = some d) (h : d.profile name = .ok q) :
    ∃ p, d.profiles.find? name = some p ∧
      List.Forall₂ (fun o o' => (o.reference = false ∧ o' = o) ∨
          (o.reference = true ∧ d.organizations.find? (·.name = o.name) = some o'))
        p.allOrganizations q.allOrganizations ∧
      (∀ o ∈ q.allOrganizations, o.reference = true → o = .named o.name) ∧
      ((∀ o ∈ q.allOrganizations, o.reference = false) ↔
        ∀ o ∈ p.allOrganizations, o.reference = true →
          d.organizations.find? (·.name = o.name) ≠ some (.named o.name)) := by
  obtain ⟨p, hp, hnone, rfl⟩ := profile_eq_ok_iff.1 h
  have hfound : ∀ o ∈ p.allOrganizations, o.reference = true →
      d.organizations.find? (·.name = o.name) = some (o.definition d.organizations) :=
    fun o ho href => Organization.definition_of_reference href (hnone o ho)
  rw [Profile.allOrganizations_mapOrganizations]
  refine ⟨p, hp, ?_, ?_, ?_, ?_⟩
  · rw [List.forall₂_map_right_iff, List.forall₂_same]
    intro o ho
    cases href : o.reference with
    | false => exact .inl ⟨rfl, Organization.definition_of_inline href⟩
    | true => exact .inr ⟨rfl, hfound o ho href⟩
  · rw [List.forall_mem_map]
    intro o ho hleft
    obtain ⟨-, hnamed⟩ := definition_eq_named hread (hnone o ho) hleft
    rw [hnamed]
    rfl
  · rw [List.forall_mem_map]
    intro hall o ho href hbare
    have hleft := hall o ho
    rw [Option.some.inj ((hfound o ho href).symm.trans hbare)] at hleft
    cases hleft
  · rw [List.forall_mem_map]
    intro hall o ho
    rw [Bool.eq_false_iff]
    intro hleft
    obtain ⟨href, hnamed⟩ := definition_eq_named hread (hnone o ho) hleft
    exact hall o ho href (hnamed ▸ hfound o ho href)

/-- A document whose first shared organization is only a name. -/
def bareText : String :=
  "organizations = ['Org1', \x7bname = 'Org2', id = 'Org2MSP'\x7d]
[profiles.Channel.application]
organizations = ['Org1', 'Org2']
"

def bareDocument : ProfileDocument where
  organizations := [.named "Org1", { name := "Org2", mspId := "Org2MSP" }]
  profiles := .ofList [("Channel", {
    application := some { organizations := [.named "Org1", .named "Org2"] } })]

/-- One reference is filled in, and the other one stays. -/
def bareProfile : Profile where
  application := some {
    organizations := [.named "Org1", { name := "Org2", mspId := "Org2MSP" }] }

set_option maxRecDepth 10000 in
theorem parse_bareText :
    (Toml.parse bareText).bind (ofDatum .ignored) = some bareDocument := by
  have hchars : bareText.toList = _ := String.toList_ofList
  rw [Toml.parse, hchars]
  decide +kernel

theorem profile_bareDocument : bareDocument.profile "Channel" = .ok bareProfile :=
  eq_ok_of_toOption (by decide +kernel)

theorem profile_references_bareDocument :
    ∃ datum, Toml.parse bareText = some datum ∧ ofDatum .ignored datum = some bareDocument ∧
      bareDocument.profile "Channel" = .ok bareProfile ∧
      (∃ p, bareDocument.profiles.find? "Channel" = some p ∧
        List.Forall₂ (fun o o' => (o.reference = false ∧ o' = o) ∨
            (o.reference = true ∧ bareDocument.organizations.find? (·.name = o.name) = some o'))
          p.allOrganizations bareProfile.allOrganizations) ∧
      ∀ o ∈ bareProfile.allOrganizations, o.reference = true → o = .named o.name := by
  obtain ⟨datum, hparse, hread⟩ := Option.bind_eq_some_iff.1 parse_bareText
  obtain ⟨p, hp, hstands, hnamed, -⟩ := profile_references hread profile_bareDocument
  exact ⟨datum, hparse, hread, profile_bareDocument, ⟨p, hp, hstands⟩, hnamed⟩

/-- The reference that stays is an organization without an identifier. -/
theorem profile_keeps_bare_name :
    (Toml.parse bareText).bind (ofDatum .ignored) = some bareDocument ∧
    bareDocument.profile "Channel" = .ok bareProfile ∧
    ∃ o ∈ bareProfile.allOrganizations, o.reference = true ∧ o.mspId = "" :=
  ⟨parse_bareText, profile_bareDocument, .named "Org1", by decide +kernel, rfl, rfl⟩

end ProfileDocument

end ChannelConfig
