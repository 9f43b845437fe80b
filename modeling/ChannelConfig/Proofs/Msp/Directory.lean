import ChannelConfig.Disk.Tree
import ChannelConfig.Msp.Directory
import ChannelConfig.Proofs.Result

/-! Material in directories. `FileView.Loadable` says what the directories must hold, and
`FileView.Supplies` what is then found in them: of each directory all regular files in the order of
their names. The order in which a directory lists its names does not matter
(`FileView.Relists.material_eq`). How sections are counted is left open: a count is only a function
of the bytes of a file. -/

set_option autoImplicit false

namespace ChannelConfig

/-! ## What is asked of files -/

/-- A file with at least one section of the kind, and no section in it that cannot be read. -/
def PemKind.Has (kind : PemKind) (file : Bytes) : Prop :=
  ∃ n, 0 < n ∧ Pem.count kind.label file = .ok n

theorem PemKind.check_eq_ok_iff {kind : PemKind} {file : Bytes} :
    kind.check file = .ok () ↔ kind.Has file := by
  rw [check, Has]
  cases Pem.count kind.label file with
  | error fault => simp
  | ok n =>
    cases n with
    | zero => simp
    | succ n => simp

/-- The kind of sections in the files of a directory. -/
def CredentialDirectory.kind (below : Path) : PemKind :=
  if below = revocationList then .revocationList else .certificate

namespace Material

/-- Each list of the material is a part that is kept in a directory of its own, and of a kind. There
are no node units. -/
structure ComesFrom (part : PemKind → Path → List Bytes → Prop) (m : Material) : Prop where
  rootCerts : part .certificate CredentialDirectory.rootCerts m.rootCerts
  intermediateCerts : part .certificate CredentialDirectory.intermediateCerts m.intermediateCerts
  adminCerts : part .certificate CredentialDirectory.adminCerts m.adminCerts
  revocationList : part .revocationList CredentialDirectory.revocationList m.revocationList
  tlsRootCerts : part .certificate CredentialDirectory.tlsRootCerts m.tlsRootCerts
  tlsIntermediateCerts :
    part .certificate CredentialDirectory.tlsIntermediateCerts m.tlsIntermediateCerts
  nodeOus : m.nodeOus = none

variable {part part' : PemKind → Path → List Bytes → Prop} {m : Material}

theorem ComesFrom.imp (h : m.ComesFrom part)
    (hpart : ∀ kind below contents, part kind below contents → part' kind below contents) :
    m.ComesFrom part' :=
  ⟨hpart _ _ _ h.rootCerts, hpart _ _ _ h.intermediateCerts, hpart _ _ _ h.adminCerts,
    hpart _ _ _ h.revocationList, hpart _ _ _ h.tlsRootCerts, hpart _ _ _ h.tlsIntermediateCerts,
    h.nodeOus⟩

/-- There is such material if each directory has its part. -/
theorem exists_comesFrom_iff : (∃ m : Material, m.ComesFrom part) ↔
    ∀ below ∈ CredentialDirectory.list, ∃ contents, part (CredentialDirectory.kind below) below
      contents := by
  simp only [CredentialDirectory.list, List.forall_mem_cons, List.not_mem_nil, false_imp_iff,
    implies_true, and_true]
  constructor
  · rintro ⟨m, h⟩
    exact ⟨⟨_, h.rootCerts⟩, ⟨_, h.intermediateCerts⟩, ⟨_, h.adminCerts⟩, ⟨_, h.revocationList⟩,
      ⟨_, h.tlsRootCerts⟩, ⟨_, h.tlsIntermediateCerts⟩⟩
  · rintro ⟨⟨rootCerts, hrootCerts⟩, ⟨intermediateCerts, hintermediateCerts⟩,
      ⟨adminCerts, hadminCerts⟩, ⟨revocationList, hrevocationList⟩, ⟨tlsRootCerts, htlsRootCerts⟩,
      ⟨tlsIntermediateCerts, htlsIntermediateCerts⟩⟩
    exact ⟨⟨rootCerts, intermediateCerts, adminCerts, revocationList, tlsRootCerts,
        tlsIntermediateCerts, none⟩,
      ⟨hrootCerts, hintermediateCerts, hadminCerts, hrevocationList, htlsRootCerts,
        htlsIntermediateCerts, rfl⟩⟩

end Material

namespace FileView

variable {v v' : FileView} {kind : PemKind} {directory : Path} {mspType : String} {m : Material}

theorem pemFile_eq_ok_iff {path : Path} {bs : Bytes} :
    v.pemFile kind path = .ok bs ↔ v.contents path = .ok bs ∧ kind.Has bs := by
  rw [pemFile]
  cases v.contents path with
  | error e => simp
  | ok found =>
    simp only [Except.ok.injEq]
    constructor
    · intro h
      split at h
      · cases h
      · next hcheck =>
        cases h
        exact ⟨rfl, PemKind.check_eq_ok_iff.1 hcheck⟩
    · rintro ⟨rfl, hhas⟩
      rw [PemKind.check_eq_ok_iff.2 hhas]

/-! ## Files of a directory -/

/-- The directory can be listed, or there is none. -/
def Listable (v : FileView) (directory : Path) : Prop :=
  v.names directory = .error .notFound ∨ ∃ names, v.names directory = .ok names

/-- The names of the regular files of a directory, in the order in which it lists them. -/
def filesIn (v : FileView) (directory : Path) : List String :=
  match v.names directory with
  | .ok names => names.filter fun name => v.isFile (directory.join ⟨name⟩)
  | .error _ => []

/-- The contents of the regular files of a directory, each file once, in the order of their names. -/
def Gathers (v : FileView) (directory : Path) (contents : List Bytes) : Prop :=
  ∃ files : List String, files.Pairwise (· ≤ ·) ∧ files.Perm (v.filesIn directory) ∧
    List.Forall₂ (fun name bs => v.contents (directory.join ⟨name⟩) = .ok bs) files contents

/-- Names in their order. -/
def sorted (names : List String) : List String := names.mergeSort fun a b => !decide (b < a)

theorem pairwise_sorted (names : List String) : (sorted names).Pairwise (· ≤ ·) := by
  have hle (a b : String) : (!decide (b < a)) = true ↔ a ≤ b := by
    rw [Bool.not_eq_true', decide_eq_false_iff_not, String.not_lt]
  refine (List.pairwise_mergeSort (fun a b c => ?_) (fun a b => ?_) names).imp fun h => (hle ..).1 h
  · simp only [hle]
    exact String.le_trans
  · simp only [Bool.or_eq_true, hle]
    exact String.le_total a b

theorem sorted_perm (names : List String) : (sorted names).Perm names := List.mergeSort_perm ..

@[simp] theorem sorted_nil : sorted [] = [] := List.mergeSort_nil

/-- There is only one order of names. -/
theorem eq_sorted {files names : List String} (hordered : files.Pairwise (· ≤ ·))
    (hperm : files.Perm names) : files = sorted names :=
  (hperm.trans (sorted_perm names).symm).eq_of_pairwise (fun _ _ _ _ => String.le_antisymm)
    hordered (pairwise_sorted names)

theorem filter_sorted (p : String → Bool) (names : List String) :
    (sorted names).filter p = sorted (names.filter p) :=
  eq_sorted ((pairwise_sorted names).filter p) ((sorted_perm names).filter p)

theorem regularFiles_of_names {names : List String} (h : v.names directory = .ok names) :
    v.regularFiles directory =
      .ok (((sorted names).map fun name => directory.join ⟨name⟩).filter v.isFile) := by
  rw [regularFiles, h]
  rfl

theorem regularFiles_eq_ok_iff {paths : List Path} : v.regularFiles directory = .ok paths ↔
    v.Listable directory ∧
      paths = (sorted (v.filesIn directory)).map fun name => directory.join ⟨name⟩ := by
  cases hnames : v.names directory with
  | error e => cases e <;> simp [regularFiles, Listable, filesIn, hnames, eq_comm]
  | ok names =>
    have hlistable : v.Listable directory := .inr ⟨names, hnames⟩
    -- the program sorts first and then drops what is no file; sorting the files alone is the same
    have hfiles : (sorted names).filter (fun name => v.isFile (directory.join ⟨name⟩)) =
        sorted (v.filesIn directory) := by
      rw [filter_sorted, filesIn, hnames]
    rw [regularFiles_of_names hnames, List.filter_map, Except.ok.injEq, eq_comm, ← hfiles]
    exact (and_iff_right hlistable).symm

theorem pemDirectory_eq_ok_iff {contents : List Bytes} :
    v.pemDirectory kind directory = .ok contents ↔ v.Listable directory ∧
      List.Forall₂ (fun name bs => v.contents (directory.join ⟨name⟩) = .ok bs ∧ kind.Has bs)
        (sorted (v.filesIn directory)) contents := by
  simp only [← pemFile_eq_ok_iff]
  constructor
  · intro h
    obtain ⟨paths, hpaths, h⟩ := exists_of_bind_eq_ok h
    obtain ⟨hlistable, rfl⟩ := regularFiles_eq_ok_iff.1 hpaths
    exact ⟨hlistable, List.forall₂_map_left_iff.1 (mapM_eq_ok_iff.1 h)⟩
  · rintro ⟨hlistable, h⟩
    rw [pemDirectory, regularFiles_eq_ok_iff.2 ⟨hlistable, rfl⟩]
    exact mapM_eq_ok_iff.2 (List.forall₂_map_left_iff.2 h)

/-- Names that are listed in their order are taken as they are listed. -/
theorem pemDirectory_of_ordered {names : List String} (hnames : v.names directory = .ok names)
    (hordered : names.Pairwise (· ≤ ·)) : v.pemDirectory kind directory =
      ((names.map fun name => directory.join ⟨name⟩).filter v.isFile).mapM (v.pemFile kind) := by
  rw [pemDirectory, regularFiles_of_names hnames, ← eq_sorted hordered (.refl names)]
  rfl

theorem exists_pemDirectory_iff :
    (∃ contents, v.pemDirectory kind directory = .ok contents) ↔ v.Listable directory ∧
      ∀ name ∈ v.filesIn directory,
        ∃ bs, v.contents (directory.join ⟨name⟩) = .ok bs ∧ kind.Has bs := by
  simp only [pemDirectory_eq_ok_iff, exists_and_left, exists_forall₂_iff,
    (sorted_perm (v.filesIn directory)).mem_iff]

theorem gathers_of_pemDirectory {contents : List Bytes}
    (h : v.pemDirectory kind directory = .ok contents) : v.Gathers directory contents :=
  ⟨sorted (v.filesIn directory), pairwise_sorted _, sorted_perm _,
    (pemDirectory_eq_ok_iff.1 h).2.imp fun _ _ hfile => hfile.1⟩

/-- Nothing is gathered only where there is no regular file. -/
theorem Gathers.eq_nil_iff {contents : List Bytes} (h : v.Gathers directory contents) :
    contents = [] ↔ v.filesIn directory = [] := by
  obtain ⟨files, -, hperm, hcontents⟩ := h
  rw [← List.length_eq_zero_iff, ← List.length_eq_zero_iff, ← hcontents.length_eq,
    hperm.length_eq]

/-! ## Material -/

/-- The directories below hold what is asked of them; only the root certificates must be there. -/
structure Loadable (v : FileView) (directory : Path) : Prop where
  listable : ∀ below ∈ CredentialDirectory.list, v.Listable (directory.join below)
  files : ∀ below ∈ CredentialDirectory.list, ∀ name ∈ v.filesIn (directory.join below),
    ∃ bs, v.contents ((directory.join below).join ⟨name⟩) = .ok bs ∧
      (CredentialDirectory.kind below).Has bs
  rootCerts : v.filesIn (directory.join CredentialDirectory.rootCerts) ≠ []

/-- The material is what the directories below hold. -/
def Supplies (v : FileView) (directory : Path) (m : Material) : Prop :=
  m.ComesFrom fun _ below => v.Gathers (directory.join below)

theorem material_eq_ok_iff : v.material directory mspType = .ok m ↔ mspType = bccspType ∧
    m.ComesFrom (fun kind below contents =>
      v.pemDirectory kind (directory.join below) = .ok contents) ∧ m.rootCerts ≠ [] := by
  rw [material]
  constructor
  · intro h
    split at h
    · cases h
    · next htype =>
      obtain ⟨rootCerts, hrootCerts, h⟩ := exists_of_bind_eq_ok h
      split at h
      · cases h
      · next hroots =>
        obtain ⟨_, hintermediateCerts, h⟩ := exists_of_bind_eq_ok h
        obtain ⟨_, hadminCerts, h⟩ := exists_of_bind_eq_ok h
        obtain ⟨_, hrevocationList, h⟩ := exists_of_bind_eq_ok h
        obtain ⟨_, htlsRootCerts, h⟩ := exists_of_bind_eq_ok h
        obtain ⟨_, htlsIntermediateCerts, h⟩ := exists_of_bind_eq_ok h
        cases h
        exact ⟨Decidable.not_not.1 htype, ⟨hrootCerts, hintermediateCerts, hadminCerts,
          hrevocationList, htlsRootCerts, htlsIntermediateCerts, rfl⟩, by simpa using hroots⟩
  · rintro ⟨rfl, h, hroots⟩
    have hnot : ¬ m.rootCerts.isEmpty = true := by simpa using hroots
    simp only [if_neg (not_not_intro rfl), h.rootCerts, h.intermediateCerts, h.adminCerts,
      h.revocationList, h.tlsRootCerts, h.tlsIntermediateCerts]
    show (if m.rootCerts.isEmpty then _ else _) = _
    rw [if_neg hnot]
    cases m
    cases h.nodeOus
    rfl

theorem supplies_of_material (h : v.material directory mspType = .ok m) :
    v.Supplies directory m :=
  (material_eq_ok_iff.1 h).2.1.imp fun _ _ _ => gathers_of_pemDirectory

theorem exists_material_iff : (∃ m, v.material directory mspType = .ok m) ↔
    mspType = bccspType ∧ v.Loadable directory := by
  constructor
  · rintro ⟨m, h⟩
    obtain ⟨htype, hread, hroots⟩ := material_eq_ok_iff.1 h
    have hall := fun below hbelow =>
      exists_pemDirectory_iff.1 (Material.exists_comesFrom_iff.1 ⟨m, hread⟩ below hbelow)
    refine ⟨htype, fun below hbelow => (hall below hbelow).1,
      fun below hbelow => (hall below hbelow).2, fun hnone => hroots ?_⟩
    exact (supplies_of_material h).rootCerts.eq_nil_iff.2 hnone
  · rintro ⟨htype, h⟩
    obtain ⟨m, hread⟩ : ∃ m : Material, m.ComesFrom fun kind below contents =>
        v.pemDirectory kind (directory.join below) = .ok contents :=
      Material.exists_comesFrom_iff.2 fun below hbelow =>
        exists_pemDirectory_iff.2 ⟨h.listable below hbelow, h.files below hbelow⟩
    refine ⟨m, material_eq_ok_iff.2 ⟨htype, hread, fun hnil => h.rootCerts ?_⟩⟩
    exact (gathers_of_pemDirectory hread.rootCerts).eq_nil_iff.1 hnil

/-! ## The order of listing -/

/-- The same files and directories, whose names may be listed in another order. -/
structure Relists (v' v : FileView) : Prop where
  contents : ∀ path, v'.contents path = v.contents path
  isFile : ∀ path, v'.isFile path = v.isFile path
  names : ∀ path, (∃ e, v'.names path = .error e ∧ v.names path = .error e) ∨
    ∃ names' names, v'.names path = .ok names' ∧ v.names path = .ok names ∧ names'.Perm names

theorem Relists.regularFiles_eq (h : v'.Relists v) (directory : Path) :
    v'.regularFiles directory = v.regularFiles directory := by
  rcases h.names directory with ⟨e, hnames', hnames⟩ | ⟨names', names, hnames', hnames, hperm⟩
  · rw [regularFiles, regularFiles, hnames', hnames, funext h.isFile]
  · have hsorted : sorted names' = sorted names :=
      eq_sorted (pairwise_sorted names') ((sorted_perm names').trans hperm)
    rw [regularFiles_of_names hnames', regularFiles_of_names hnames, hsorted, funext h.isFile]

theorem Relists.pemDirectory_eq (h : v'.Relists v) (kind : PemKind) (directory : Path) :
    v'.pemDirectory kind directory = v.pemDirectory kind directory := by
  have hfile : v'.pemFile kind = v.pemFile kind := by
    funext path
    rw [pemFile, pemFile, h.contents]
  rw [pemDirectory, pemDirectory, h.regularFiles_eq, hfile]

theorem Relists.material_eq (h : v'.Relists v) (directory : Path) (mspType : String) :
    v'.material directory mspType = v.material directory mspType := by
  simp only [material, h.pemDirectory_eq]

/-- Material is loaded exactly if its type is the known one and every directory can be listed or is
missing, has only files with sections of its kind, and, for the root certificates, has one at all.
It is then everything that is in the directories, in the order of names. What comes of it, also an
error, is the same for any order of listing. -/
theorem loadMsp_gathers (v : FileView) (directory : Path) (mspId mspType : String) :
    ((∃ m, v.loader.loadMsp directory mspId mspType = .ok m) ↔
      mspType = "bccsp" ∧ v.Loadable directory) ∧
    (∀ m, v.loader.loadMsp directory mspId mspType = .ok m → v.Supplies directory m) ∧
    ∀ v' : FileView, v'.Relists v →
      v'.loader.loadMsp directory mspId mspType = v.loader.loadMsp directory mspId mspType :=
  ⟨exists_material_iff, fun _ => supplies_of_material,
    fun _ h => h.material_eq directory mspType⟩

def certificateText : String := "-----BEGIN CERTIFICATE-----\nMIIB\n-----END CERTIFICATE-----\n"

def revocationListText : String := "-----BEGIN X509 CRL-----\nMIIB\n-----END X509 CRL-----\n"

/-- Two root certificates next to a directory, and one revocation list. -/
def smallDisk : Disk :=
  ((({} : Disk).addFile ["msp", "cacerts", "b.pem"] (.ofText certificateText)).addFile
    ["msp", "cacerts", "a.pem"] (.ofText (certificateText ++ certificateText))).addFile
      ["msp", "crls", "revoked.pem"] (.ofText revocationListText) |>.addDirectory
        ["msp", "cacerts", "expired"]

def smallMaterial : Material where
  rootCerts := [.ofText (certificateText ++ certificateText), .ofText certificateText]
  revocationList := [.ofText revocationListText]

/-- The view of a disk that lists the names in a directory from the last one on. -/
def backwards (v : FileView) : FileView :=
  { v with names := fun path => (v.names path).map List.reverse }

theorem backwards_relists (v : FileView) : v.backwards.Relists v := by
  refine ⟨fun _ => rfl, fun _ => rfl, fun path => ?_⟩
  show (∃ e, (v.names path).map List.reverse = .error e ∧ _) ∨ ∃ names' names,
    (v.names path).map List.reverse = .ok names' ∧ _
  cases v.names path with
  | error e => exact .inl ⟨e, rfl, rfl⟩
  | ok names => exact .inr ⟨names.reverse, names, rfl, rfl, names.reverse_perm⟩

theorem load_smallDisk :
    smallDisk.view.loader.loadMsp ⟨"msp"⟩ "Org1MSP" "bccsp" = .ok smallMaterial := by
  have hcacerts : smallDisk.view.names ⟨"msp/cacerts"⟩ = .ok ["a.pem", "b.pem", "expired"] :=
    eq_ok_of_toOption (by decide +kernel)
  have hcrls : smallDisk.view.names ⟨"msp/crls"⟩ = .ok ["revoked.pem"] :=
    eq_ok_of_toOption (by decide +kernel)
  refine material_eq_ok_iff.2 ⟨rfl, ?_, by decide⟩
  refine ⟨(pemDirectory_of_ordered hcacerts (by decide)).trans ?_, ?_, ?_,
    (pemDirectory_of_ordered hcrls (by decide)).trans ?_, ?_, ?_, rfl⟩
  all_goals exact eq_ok_of_toOption (by decide +kernel)

theorem loadMsp_gathers_small :
    smallDisk.view.loader.loadMsp ⟨"msp"⟩ "Org1MSP" "bccsp" = .ok smallMaterial ∧
    smallDisk.view.Loadable ⟨"msp"⟩ ∧ smallDisk.view.Supplies ⟨"msp"⟩ smallMaterial ∧
    smallDisk.view.backwards.loader.loadMsp ⟨"msp"⟩ "Org1MSP" "bccsp" = .ok smallMaterial := by
  obtain ⟨hiff, hsupplies, hrelists⟩ :=
    loadMsp_gathers smallDisk.view ⟨"msp"⟩ "Org1MSP" "bccsp"
  refine ⟨load_smallDisk, (hiff.1 ⟨_, load_smallDisk⟩).2, hsupplies _ load_smallDisk, ?_⟩
  exact (hrelists _ (backwards_relists _)).trans load_smallDisk

end FileView

end ChannelConfig
