import ChannelConfig.Proofs.Profile.Resolve

/-! Rebasing and resolving. `mapPaths` replaces the paths of a profile and nothing else, each of them
once (`paths_mapPaths`), and rebasing does so with every path. An organization is the same whether it
is rebased where it is shared or where it is listed, so it makes no difference whether a document is
rebased before a profile is taken out of it, or the profile afterwards (`profile_rebase`). -/

set_option autoImplicit false

namespace ChannelConfig

/-! ## Paths -/

namespace Path

variable {base p : Path}

theorem isAbsolute_join (h : base.isAbsolute = true) : (base.join p).isAbsolute = true := by
  have hroot : base.text.toList.head? = some '/' := of_decide_eq_true h
  have hstarts : ∀ rest : String, (base.text ++ rest).toList.head? = some '/' := by
    intro rest
    rw [String.toList_append, List.head?_append, hroot]
    rfl
  rw [join]
  split
  · next hkept =>
    have hempty : base.isEmpty = false := by
      rw [isEmpty, Bool.eq_false_iff, Ne, String.isEmpty_iff]
      intro hnone
      rw [hnone] at hroot
      cases hroot
    rwa [hempty, Bool.or_false] at hkept
  · split
    · exact decide_eq_true (hstarts _)
    · rw [isAbsolute, String.append_assoc]
      exact decide_eq_true (hstarts _)

theorem join_of_isAbsolute (h : p.isAbsolute = true) : base.join p = p := by
  rw [join, h, Bool.true_or, if_pos rfl]

/-- A path is joined to the base if there is one and it is relative. -/
theorem rebase_eq (base p : Path) :
    base.rebase p = if p.isEmpty = false ∧ p.isAbsolute = false then base.join p else p := by
  rw [rebase]
  cases p.isEmpty with
  | true => rfl
  | false =>
    cases habsolute : p.isAbsolute with
    | false => rfl
    | true => exact join_of_isAbsolute habsolute

theorem rebase_rebase (h : base.isAbsolute = true) (p : Path) :
    base.rebase (base.rebase p) = base.rebase p := by
  cases hempty : p.isEmpty with
  | true =>
    have hkept : base.rebase p = p := by
      rw [rebase, hempty, if_pos rfl]
    rw [hkept, hkept]
  | false =>
    have hjoined : base.rebase p = base.join p := by
      rw [rebase, hempty, if_neg Bool.false_ne_true]
    have habsolute := isAbsolute_join (p := p) h
    rw [hjoined, rebase_eq, habsolute, if_neg (by simp)]

/-- The path as it is meant in a document at another path: a relative one starts in the directory of
the document. -/
def meantIn (document p : Path) : Path :=
  match document.parent? with
  | some directory =>
    if p.isEmpty = false ∧ p.isAbsolute = false then directory.join p else p
  | none => p

end Path

/-! ## Paths of a profile -/

def Organization.mapPaths (f : Path → Path) (o : Organization) : Organization :=
  { o with mspDir := f o.mspDir }

def ConsenterDef.mapPaths (f : Path → Path) (c : ConsenterDef) : ConsenterDef :=
  { c with clientTlsCert := f c.clientTlsCert, serverTlsCert := f c.serverTlsCert }

namespace Profile

def mapConsenters (f : ConsenterDef → ConsenterDef) (p : Profile) : Profile :=
  { p with
    orderer := p.orderer.map fun s =>
      { s with etcdRaft := s.etcdRaft.map fun r => { r with consenters := r.consenters.map f } } }

/-- The profile with another path in the place of each. -/
def mapPaths (f : Path → Path) (p : Profile) : Profile :=
  (p.mapConsenters (·.mapPaths f)).mapOrganizations (·.mapPaths f)

/-- The directories of the organizations, and the files with the certificates of consenters. -/
def paths (p : Profile) : List Path := p.allOrganizations.map (·.mspDir) ++ p.certificateFiles

/-- All of a profile but its paths. -/
def withoutPaths (p : Profile) : Profile := p.mapPaths fun _ => ⟨""⟩

theorem rebase_eq_mapPaths (base : Path) (p : Profile) : p.rebase base = p.mapPaths base.rebase := by
  rw [mapPaths, mapOrganizations, mapConsenters, Option.map_map]
  rfl

/-! ### Organizations and consenters -/

theorem mapConsenters_mapConsenters (f g : ConsenterDef → ConsenterDef) (p : Profile) :
    (p.mapConsenters f).mapConsenters g = p.mapConsenters (g ∘ f) := by
  simp only [mapConsenters, Option.map_map, Function.comp_def, List.map_map]

theorem mapOrganizations_mapConsenters (f : ConsenterDef → ConsenterDef)
    (g : Organization → Organization) (p : Profile) :
    (p.mapConsenters f).mapOrganizations g = (p.mapOrganizations g).mapConsenters f := by
  simp only [mapConsenters, mapOrganizations, Option.map_map]
  rfl

theorem allOrganizations_mapConsenters (f : ConsenterDef → ConsenterDef) (p : Profile) :
    (p.mapConsenters f).allOrganizations = p.allOrganizations := by
  rw [allOrganizations, mapConsenters, Option.map_map]
  rfl

theorem certificateFiles_mapOrganizations (f : Organization → Organization) (p : Profile) :
    (p.mapOrganizations f).certificateFiles = p.certificateFiles := by
  rw [certificateFiles, mapOrganizations, Option.bind_map]
  rfl

theorem certificateFiles_mapConsenters (f : Path → Path) (p : Profile) :
    (p.mapConsenters (·.mapPaths f)).certificateFiles = p.certificateFiles.map f := by
  rw [certificateFiles, certificateFiles, mapConsenters, Option.bind_map]
  cases p.orderer with
  | none => rfl
  | some s =>
    cases hraft : s.etcdRaft with
    | none => simp [hraft]
    | some r => simp [hraft, List.flatMap_map, List.map_flatMap, ConsenterDef.mapPaths]

/-! ### All paths -/

/-- Every path is replaced, and once. -/
theorem paths_mapPaths (f : Path → Path) (p : Profile) : (p.mapPaths f).paths = p.paths.map f := by
  rw [paths, paths, mapPaths, allOrganizations_mapOrganizations, allOrganizations_mapConsenters,
    certificateFiles_mapOrganizations, certificateFiles_mapConsenters, List.map_append,
    List.map_map, List.map_map]
  rfl

theorem mapPaths_mapPaths (f g : Path → Path) (p : Profile) :
    (p.mapPaths f).mapPaths g = p.mapPaths (g ∘ f) := by
  rw [mapPaths, mapPaths, ← mapOrganizations_mapConsenters, mapConsenters_mapConsenters,
    mapOrganizations_mapOrganizations]
  rfl

theorem mapPaths_id (p : Profile) : p.mapPaths (fun path => path) = p := by
  simp [mapPaths, mapConsenters, mapOrganizations, ConsenterDef.mapPaths, Organization.mapPaths,
    SortedFrom.map_id]

/-- Nothing but paths is replaced. -/
theorem withoutPaths_mapPaths (f : Path → Path) (p : Profile) :
    (p.mapPaths f).withoutPaths = p.withoutPaths :=
  mapPaths_mapPaths ..

end Profile

/-! ## Documents -/

namespace Organization

variable {shared : List Organization} {o : Organization} (f : Path → Path)

theorem find?_mapPaths (name : String) : (shared.map (·.mapPaths f)).find? (·.name = name) =
    (shared.find? (·.name = name)).map (·.mapPaths f) :=
  List.find?_map

theorem definition_mapPaths :
    (o.mapPaths f).definition (shared.map (·.mapPaths f)) = (o.definition shared).mapPaths f := by
  rw [definition, definition, find?_mapPaths, Option.getD_map]
  show (if o.reference then _ else _) = _
  split <;> rfl

theorem dangling_mapPaths :
    (o.mapPaths f).Dangling (shared.map (·.mapPaths f)) ↔ o.Dangling shared := by
  rw [Dangling, List.forall_mem_map]
  rfl

theorem find?_dangling_mapPaths (os : List Organization) :
    (os.map (·.mapPaths f)).find? (·.Dangling (shared.map (·.mapPaths f))) =
      (os.find? (·.Dangling shared)).map (·.mapPaths f) := by
  rw [List.find?_map]
  congr 2
  funext o
  exact decide_eq_decide.2 (dangling_mapPaths f)

end Organization

namespace ProfileDocument

def mapPaths (f : Path → Path) (d : ProfileDocument) : ProfileDocument where
  profiles := d.profiles.map fun _ p => p.mapPaths f
  organizations := d.organizations.map (·.mapPaths f)

theorem rebase_eq_mapPaths (base : Path) (d : ProfileDocument) :
    d.rebase base = d.mapPaths base.rebase := by
  simp only [rebase, mapPaths, Profile.rebase_eq_mapPaths]
  rfl

theorem mapPaths_mapPaths (f g : Path → Path) (d : ProfileDocument) :
    (d.mapPaths f).mapPaths g = d.mapPaths (g ∘ f) := by
  simp only [mapPaths, SortedFrom.map_map, List.map_map, Profile.mapPaths_mapPaths]
  rfl

theorem mapPaths_id (d : ProfileDocument) : d.mapPaths (fun path => path) = d := by
  simp [mapPaths, Profile.mapPaths_id, Organization.mapPaths, SortedFrom.map_id]

/-- What becomes of a document at a path that is loaded. -/
theorem mapPaths_meantIn {E : Type} (d : ProfileDocument) (document : Path) :
    (match document.parent? with
      | some directory => .ok (d.rebase directory)
      | none => .ok d : Except E ProfileDocument) = .ok (d.mapPaths document.meantIn) := by
  cases hparent : document.parent? with
  | none =>
    have hmeant : document.meantIn = fun path => path := by
      funext path
      rw [Path.meantIn, hparent]
    rw [hmeant, mapPaths_id]
  | some directory =>
    have hmeant : document.meantIn = directory.rebase := by
      funext path
      rw [Path.meantIn, hparent, Path.rebase_eq]
    rw [hmeant, ← rebase_eq_mapPaths]

/-- The first dangling reference is the same one, and the definitions have their paths replaced. -/
theorem profile_mapPaths (f : Path → Path) (d : ProfileDocument) (name : String) :
    (d.mapPaths f).profile name = (d.profile name).map (·.mapPaths f) := by
  have hprofiles : (d.mapPaths f).profiles.find? name =
      (d.profiles.find? name).map (·.mapPaths f) := SortedFrom.find?_map ..
  cases hp : d.profiles.find? name with
  | none =>
    rw [hp] at hprofiles
    rw [profile, profile, hp, hprofiles]
    rfl
  | some p =>
    rw [hp] at hprofiles
    have hdangling : (p.mapPaths f).allOrganizations.find?
          (·.Dangling (d.mapPaths f).organizations) =
        (p.allOrganizations.find? (·.Dangling d.organizations)).map (·.mapPaths f) := by
      rw [Profile.mapPaths, Profile.allOrganizations_mapOrganizations,
        Profile.allOrganizations_mapConsenters]
      exact Organization.find?_dangling_mapPaths f _
    have hdefinitions : (p.mapPaths f).mapOrganizations (·.definition (d.mapPaths f).organizations) =
        (p.mapOrganizations (·.definition d.organizations)).mapPaths f := by
      rw [Profile.mapPaths, Profile.mapPaths, Profile.mapOrganizations_mapOrganizations,
        ← Profile.mapOrganizations_mapConsenters, Profile.mapOrganizations_mapOrganizations]
      congr 1
      funext o
      exact Organization.definition_mapPaths f
    rw [profile_eq hprofiles, profile_eq hp, hdangling, hdefinitions]
    cases p.allOrganizations.find? (·.Dangling d.organizations) <;> rfl

/-- A profile is the same, or the error is, whether its document was rebased or it is rebased itself,
which joins each of its relative paths to the base and changes nothing else. It is the profile of the
document with every reference, where it stands, replaced by the first shared organization of its
name; the error is that there is no such profile, or the first reference to no shared organization.
An absolute base makes paths absolute, so rebasing once more does nothing. -/
theorem profile_rebase (d : ProfileDocument) (base : Path) (name : String) :
    (d.rebase base).profile name = (d.profile name).map (·.rebase base) ∧
    (∀ p : Profile, (p.rebase base).withoutPaths = p.withoutPaths ∧
      (p.rebase base).paths = p.paths.map fun path =>
        if path.isEmpty = false ∧ path.isAbsolute = false then base.join path else path) ∧
    (∀ q, d.profile name = .ok q ↔ ∃ p, d.profiles.find? name = some p ∧
      (∀ o ∈ p.allOrganizations, ¬ o.Dangling d.organizations) ∧
      q = p.mapOrganizations (·.definition d.organizations)) ∧
    (∀ e, d.profile name = .error e ↔
      (d.profiles.find? name = none ∧ e = .validation [] (.profileNotFound name)) ∨
      ∃ p o, d.profiles.find? name = some p ∧
        p.allOrganizations.find? (·.Dangling d.organizations) = some o ∧
        e = .validation [] (.unknownOrganization name o.name)) ∧
    (base.isAbsolute = true → (d.rebase base).rebase base = d.rebase base) := by
  refine ⟨?_, fun p => ⟨?_, ?_⟩, fun q => profile_eq_ok_iff, fun e => profile_eq_error_iff, ?_⟩
  · have hrebase : Profile.rebase base = Profile.mapPaths base.rebase :=
      funext (Profile.rebase_eq_mapPaths base)
    rw [rebase_eq_mapPaths, profile_mapPaths, hrebase]
  · rw [Profile.rebase_eq_mapPaths, Profile.withoutPaths_mapPaths]
  · rw [Profile.rebase_eq_mapPaths, Profile.paths_mapPaths]
    exact List.map_congr_left fun path _ => Path.rebase_eq base path
  · intro habsolute
    have honce : base.rebase ∘ base.rebase = base.rebase :=
      funext (Path.rebase_rebase habsolute)
    rw [rebase_eq_mapPaths, rebase_eq_mapPaths, mapPaths_mapPaths, honce]

/-- Two shared organizations of one name. Three sections refer to it, one of them next to an
organization of its own, which has no directory. -/
def sharedNetwork : ProfileDocument where
  organizations := [
    { name := "Org1", mspId := "Org1MSP", mspDir := ⟨"crypto/org1"⟩ },
    { name := "Org1", mspId := "OtherMSP", mspDir := ⟨"crypto/other"⟩ }]
  profiles := .ofList [("Channel", {
    orderer := some {
      organizations := [.named "Org1"]
      etcdRaft := some {
        consenters := [⟨"orderer0", 7050, ⟨"tls/client.pem"⟩, ⟨"/tls/server.pem"⟩⟩] } }
    application := some {
      organizations := [{ name := "Org9", mspId := "Org9MSP" }, .named "Org1"] }
    consortiums := some (.ofList [("Sample", { organizations := [.named "Org1"] })]) })]

theorem profile_rebase_sharedNetwork :
    (⟨"/etc"⟩ : Path).isAbsolute = true ∧
    ∃ q, sharedNetwork.profile "Channel" = .ok q ∧
      (sharedNetwork.rebase ⟨"/etc"⟩).profile "Channel" = .ok (q.rebase ⟨"/etc"⟩) ∧
      (q.rebase ⟨"/etc"⟩).paths = [⟨"/etc/crypto/org1"⟩, ⟨""⟩, ⟨"/etc/crypto/org1"⟩,
        ⟨"/etc/crypto/org1"⟩, ⟨"/etc/tls/client.pem"⟩, ⟨"/tls/server.pem"⟩] ∧
      (q.rebase ⟨"/etc"⟩).withoutPaths = q.withoutPaths ∧
      (sharedNetwork.rebase ⟨"/etc"⟩).rebase ⟨"/etc"⟩ = sharedNetwork.rebase ⟨"/etc"⟩ := by
  have habsolute : (⟨"/etc"⟩ : Path).isAbsolute = true := by decide
  obtain ⟨hcommute, hpaths, hok, -, honce⟩ := profile_rebase sharedNetwork ⟨"/etc"⟩ "Channel"
  have hresolved := (hok _).2 ⟨_, rfl, by decide +kernel, rfl⟩
  refine ⟨habsolute, _, hresolved, ?_, ?_, (hpaths _).1, honce habsolute⟩
  · rw [hcommute, hresolved]
    rfl
  · exact (hpaths _).2.trans (by decide +kernel)

end ProfileDocument

end ChannelConfig
