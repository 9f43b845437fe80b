import ChannelConfig.Program.Snapshot
import ChannelConfig.Proofs.Channel.Influence
import ChannelConfig.Proofs.Msp.Directory

/-! What a request looks at. The outcome depends on the paths that a survey looks at and on no others
(`outcome_congr`), so it is found in a snapshot of them (`outcome_snapshot`), and to perform a request
on the files of a system is to run it (`perform_eq_run`). -/

set_option autoImplicit false

namespace ChannelConfig

open Program

/-! ## Views that agree -/

namespace FileView

/-- What a view has at a path. -/
def look (v : FileView) (path : Path) : Sighting :=
  ⟨path, v.contents path, v.names path, v.isFile path⟩

def inside (v : FileView) (directory : Path) : List Path :=
  (v.look directory).inside

/-- Both views have the same at each of the paths. -/
def AgreesOn (v v' : FileView) (paths : List Path) : Prop :=
  ∀ path ∈ paths, v.look path = v'.look path

variable {v v' : FileView} {path directory : Path} {kind : PemKind}

theorem contents_congr (h : v.look path = v'.look path) : v.contents path = v'.contents path :=
  congrArg Sighting.contents h

theorem names_congr (h : v.look path = v'.look path) : v.names path = v'.names path :=
  congrArg Sighting.names h

theorem isFile_congr (h : v.look path = v'.look path) : v.isFile path = v'.isFile path :=
  congrArg Sighting.isFile h

theorem text_congr (h : v.look path = v'.look path) : v.text path = v'.text path := by
  rw [text, text, contents_congr h]

theorem pemFile_congr (h : v.look path = v'.look path) :
    v.pemFile kind path = v'.pemFile kind path := by
  rw [pemFile, pemFile, contents_congr h]

/-! ### Directories -/

/-- Every file of a directory is one of the names that are listed there. -/
theorem mem_inside {paths : List Path} (hpaths : v.regularFiles directory = .ok paths)
    (hpath : path ∈ paths) : path ∈ v.inside directory := by
  obtain ⟨-, rfl⟩ := regularFiles_eq_ok_iff.1 hpaths
  obtain ⟨name, hname, rfl⟩ := List.mem_map.1 hpath
  rw [(sorted_perm _).mem_iff, filesIn] at hname
  rw [inside, Sighting.inside, look]
  cases hnames : v.names directory with
  | error e =>
    rw [hnames] at hname
    cases hname
  | ok names =>
    rw [hnames] at hname
    exact List.mem_map_of_mem (List.mem_of_mem_filter hname)

theorem regularFiles_congr (h : v.AgreesOn v' (directory :: v.inside directory)) :
    v.regularFiles directory = v'.regularFiles directory := by
  obtain ⟨hdirectory, hinside⟩ := List.forall_mem_cons.1 h
  have hlisted := names_congr hdirectory
  cases hnames : v.names directory with
  | error e =>
    rw [regularFiles, regularFiles, ← hlisted, hnames]
    cases e <;> rfl
  | ok names =>
    rw [regularFiles_of_names hnames, regularFiles_of_names (hlisted.symm.trans hnames)]
    refine congrArg Except.ok (List.filter_congr fun path hpath => isFile_congr (hinside path ?_))
    rw [inside, Sighting.inside, look, hnames]
    exact ((sorted_perm names).map _).mem_iff.1 hpath

theorem pemDirectory_congr (h : v.AgreesOn v' (directory :: v.inside directory)) :
    v'.pemDirectory kind directory = v.pemDirectory kind directory := by
  rw [pemDirectory, pemDirectory, ← regularFiles_congr h]
  cases hpaths : v.regularFiles directory with
  | error e => rfl
  | ok paths =>
    refine mapM_congr fun path hpath => (pemFile_congr (h path ?_)).symm
    exact List.mem_cons_of_mem _ (mem_inside hpaths hpath)

theorem material_congr {mspType : String}
    (h : ∀ below ∈ CredentialDirectory.list,
      v.AgreesOn v' (directory.join below :: v.inside (directory.join below))) :
    v'.material directory mspType = v.material directory mspType := by
  have hpart (kind : PemKind) : ∀ below ∈ CredentialDirectory.list,
      v'.pemDirectory kind (directory.join below) = v.pemDirectory kind (directory.join below) :=
    fun below hbelow => pemDirectory_congr (h below hbelow)
  simp only [CredentialDirectory.list, List.forall_mem_cons] at hpart
  obtain ⟨hroots, hintermediates, hadmins, -, htlsRoots, htlsIntermediates, -⟩ := hpart .certificate
  obtain ⟨-, -, -, hrevoked, -⟩ := hpart .revocationList
  simp only [material, hroots, hintermediates, hadmins, hrevoked, htlsRoots, htlsIntermediates]

end FileView

/-! ### Profiles -/

namespace Profile

variable {v v' : FileView} {p : Profile}

/-- The paths that the tree of a profile depends on: directories, what is in them, and files. -/
def lookedAt (v : FileView) (p : Profile) : List Path :=
  p.credentialDirectories ++ p.credentialDirectories.flatMap v.inside ++ p.certificateFiles

theorem answeredAlike_loader (h : v.AgreesOn v' (p.lookedAt v)) :
    p.AnsweredAlike v.loader v'.loader := by
  obtain ⟨hdirectories, hfiles⟩ := List.forall_mem_append.1 h
  obtain ⟨hdirectories, hinside⟩ := List.forall_mem_append.1 hdirectories
  refine ⟨fun o ho _ => ?_, fun s hs _ raft hraft c hc => ?_⟩
  · refine (FileView.material_congr fun below hbelow => ?_).symm
    have hdirectory : o.mspDir.join below ∈ p.credentialDirectories :=
      List.mem_flatMap.2 ⟨o, ho, List.mem_map_of_mem hbelow⟩
    exact List.forall_mem_cons.2 ⟨hdirectories _ hdirectory,
      fun path hpath => hinside path (List.mem_flatMap.2 ⟨_, hdirectory, hpath⟩)⟩
  · have hread : ∀ path ∈ [c.clientTlsCert, c.serverTlsCert],
        v.loader.readPath path = v'.loader.readPath path := by
      intro path hpath
      have hfile : path ∈ p.certificateFiles := by
        rw [certificateFiles, hs, Option.bind_some, hraft]
        exact List.mem_flatMap.2 ⟨c, hc, hpath⟩
      exact congrArg (Except.mapError _) (FileView.contents_congr (hfiles path hfile))
    simpa using hread

theorem creationTransaction_congr {loader loader' : MaterialLoader}
    (h : p.AnsweredAlike loader loader') :
    p.creationTransaction loader = p.creationTransaction loader' := by
  funext channelId signer updateNonce stamp
  simp only [creationTransaction, creationTemplate, creationUpdate, channelGroup_congr h]

end Profile

namespace Program

variable {v v' : FileView} {r : Request}

/-! ## Snapshots -/

/-- A snapshot of a view has what the view has, at each of its paths. -/
theorem agreesOn_snapshot (v : FileView) (paths : List Path) :
    v.AgreesOn (Snapshot.view (paths.map v.look)) paths := by
  intro path hpath
  -- the first sighting of the path: any other one shows the same view
  have hfound : (paths.map v.look).find? (·.path = path) = some (v.look path) := by
    rw [List.find?_map, Option.map_eq_some_iff]
    cases hfind : paths.find? ((fun seen => decide (seen.path = path)) ∘ v.look) with
    | none => exact absurd (decide_eq_true rfl) (List.find?_eq_none.1 hfind path hpath)
    | some other =>
      have htest := List.find?_some hfind
      have hother : other = path := of_decide_eq_true htest
      exact ⟨other, rfl, congrArg v.look hother⟩
  simp only [FileView.look, Snapshot.view, hfound]
  rfl

/-! ## What an outcome depends on -/

/-- The paths that a request looks at. Which profile it is about is seen in the files that it
names. -/
def Request.lookedAt (v : FileView) (r : Request) : List Path :=
  match loadProfile (Snapshot.view (r.files.map v.look)) r with
  | .error _ => r.files
  | .ok profile => r.files ++ profile.lookedAt v

theorem agreesOn_files (h : v.AgreesOn v' (r.lookedAt v)) : v.AgreesOn v' r.files := by
  rw [Request.lookedAt] at h
  split at h
  · exact h
  · exact (List.forall_mem_append.1 h).1

section

variable (hmakes : ∀ path, r.action ≠ .inspectBlock path)

include hmakes

theorem files_eq : r.files = r.config ::
    match r.signer with
    | none => []
    | some identity => identity.key :: identity.certificate.toList := by
  rw [Request.files]
  split
  · next path haction => exact absurd haction (hmakes path)
  · rfl

theorem loadProfile_congr (h : v.AgreesOn v' r.files) : loadProfile v r = loadProfile v' r := by
  rw [files_eq hmakes] at h
  have hdocument : loadDocument v r.config = loadDocument v' r.config := by
    rw [loadDocument, loadDocument, FileView.text_congr (List.forall_mem_cons.1 h).1]
  rw [loadProfile, loadProfile, hdocument]

theorem loadSigner_congr (h : v.AgreesOn v' r.files) :
    r.signer.mapM (loadSigner v) = r.signer.mapM (loadSigner v') := by
  rw [files_eq hmakes] at h
  obtain ⟨-, h⟩ := List.forall_mem_cons.1 h
  cases hsigner : r.signer with
  | none => rfl
  | some identity =>
    rw [hsigner] at h
    obtain ⟨hkey, hcertificate⟩ := List.forall_mem_cons.1 h
    have hsame : loadSigner v identity = loadSigner v' identity := by
      rw [loadSigner, loadSigner, FileView.text_congr hkey]
      cases hsome : identity.certificate with
      | none => rfl
      | some path =>
        rw [hsome] at hcertificate
        simp only [FileView.contents_congr (hcertificate path (List.mem_singleton.2 rfl))]
    rw [Option.mapM_some, Option.mapM_some, hsame]

theorem answeredAlike_of_loadProfile {profile : Profile} (hprofile : loadProfile v r = .ok profile)
    (h : v.AgreesOn v' (r.lookedAt v)) : profile.AnsweredAlike v.loader v'.loader := by
  -- the profile that the survey reads in its snapshot of the files is the one in the files
  have hseen := (loadProfile_congr hmakes (agreesOn_snapshot v r.files)).symm.trans hprofile
  rw [Request.lookedAt, hseen] at h
  exact Profile.answeredAlike_loader (List.forall_mem_append.1 h).2

theorem makeBlock_congr (supplies : Supplies) (h : v.AgreesOn v' (r.lookedAt v)) :
    makeBlock v r supplies = makeBlock v' r supplies := by
  rw [makeBlock, makeBlock, ← loadProfile_congr hmakes (agreesOn_files h)]
  refine bind_congr_of_ok fun profile hprofile => ?_
  rw [Profile.channelGroup_congr (answeredAlike_of_loadProfile hmakes hprofile h)]

theorem makeTransaction_congr (supplies : Supplies) (h : v.AgreesOn v' (r.lookedAt v)) :
    makeTransaction v r supplies = makeTransaction v' r supplies := by
  have hfiles := agreesOn_files h
  rw [makeTransaction, makeTransaction, ← loadProfile_congr hmakes hfiles,
    loadSigner_congr hmakes hfiles]
  refine bind_congr_of_ok fun profile hprofile => ?_
  rw [Profile.creationTransaction_congr (answeredAlike_of_loadProfile hmakes hprofile h)]

end

/-- A request has the same outcome in every view that has the same at the paths it looks at. -/
theorem outcome_congr (supplies : Supplies) (h : v.AgreesOn v' (r.lookedAt v)) :
    outcome v r supplies = outcome v' r supplies := by
  rw [outcome, outcome]
  cases haction : r.action with
  | outputBlock path =>
    have hmakes : ∀ path, r.action ≠ .inspectBlock path := by simp [haction]
    rw [makeBlock_congr hmakes supplies h]
  | outputCreateChannelTx path =>
    have hmakes : ∀ path, r.action ≠ .inspectBlock path := by simp [haction]
    rw [makeTransaction_congr hmakes supplies h]
  | inspectBlock path =>
    have hfiles := agreesOn_files h
    rw [Request.files, haction] at hfiles
    have hseen : v.look path = v'.look path := hfiles path (List.mem_singleton_self path)
    have hinspect : inspect v path = inspect v' path := by
      rw [inspect, inspect, FileView.contents_congr hseen]
    exact congrArg (Except.map Outcome.view) hinspect

/-- What was seen at the paths that a request looks at is enough to know its outcome. -/
theorem outcome_snapshot (v : FileView) (r : Request) (supplies : Supplies) :
    outcome (Snapshot.view ((r.lookedAt v).map v.look)) r supplies = outcome v r supplies :=
  (outcome_congr supplies (agreesOn_snapshot v _)).symm

/-! ## Performing a request -/

section

variable {S A B : Type} {s : S}

theorem run_bind_of_run {x : StateM S A} {a : A} (hx : x.run s = (a, s)) (f : A → StateM S B) :
    (x >>= f).run s = (f a).run s := by
  rw [StateT.run_bind, hx]
  rfl

/-- What is done to the elements of a list one after the other, if it changes nothing. -/
theorem run_mapM {f : A → StateM S B} {g : A → B} (h : ∀ a, (f a).run s = (g a, s))
    (as : List A) : (as.mapM f).run s = (as.map g, s) := by
  induction as with
  | nil => rfl
  | cons a as ih =>
    rw [List.mapM_cons, run_bind_of_run (h a), run_bind_of_run ih]
    rfl

end

section

variable {F : Type} [FileSystem F]

/-- Looks at the files as they are. -/
def lookAt (path : Path) : StateM F Sighting :=
  fun files => ((FileSystem.view files).look path, files)

/-- Writes a file, if the system lets it. -/
def writeTo (path : Path) (contents : Bytes) : StateM F (Except FileError Unit) :=
  fun files =>
    match FileSystem.write files path contents with
    | .ok files => (.ok (), files)
    | .error e => (.error e, files)

variable (files : F)

theorem run_lookAt (path : Path) :
    (lookAt path).run files = ((FileSystem.view files).look path, files) :=
  rfl

theorem run_writeTo (path : Path) (contents : Bytes) :
    (writeTo path contents).run files =
      match FileSystem.write files path contents with
      | .ok files => (.ok (), files)
      | .error e => (.error e, files) :=
  rfl

theorem run_lookInside (directories : List Path) :
    (lookInside lookAt directories).run files =
      ((directories ++ directories.flatMap (FileSystem.view files).inside).map
        (FileSystem.view files).look, files) := by
  have hinner (seen : Sighting) := run_mapM (run_lookAt files) seen.inside
  rw [lookInside, run_bind_of_run (run_mapM (run_lookAt files) directories),
    run_bind_of_run (run_mapM hinner _), List.map_append, List.map_flatMap, List.map_map]
  rfl

theorem run_survey (r : Request) :
    (survey lookAt r).run files =
      ((r.lookedAt (FileSystem.view files)).map (FileSystem.view files).look, files) := by
  rw [survey, run_bind_of_run (run_mapM (run_lookAt files) r.files), Request.lookedAt]
  cases loadProfile (Snapshot.view (r.files.map (FileSystem.view files).look)) r with
  | error e => rfl
  | ok profile =>
    dsimp only
    rw [run_bind_of_run (run_lookInside files profile.credentialDirectories),
      run_bind_of_run (run_mapM (run_lookAt files) profile.certificateFiles), Profile.lookedAt]
    simp only [List.map_append, List.append_assoc]
    rfl

/-- To perform a request by looking at files and writing them is to run it on the files. -/
theorem perform_eq_run (r : Request) (supplies : Supplies) :
    (perform lookAt writeTo r supplies).run files =
      ((run files r supplies).2, (run files r supplies).1) := by
  rw [perform, run_bind_of_run (run_survey files r), outcome_snapshot, run]
  cases outcome (FileSystem.view files) r supplies with
  | error e => rfl
  | ok result =>
    dsimp only
    cases result.file with
    | none => rfl
    | some writing =>
      obtain ⟨artifact, path, contents⟩ := writing
      dsimp only
      rw [StateT.run_bind, run_writeTo]
      cases FileSystem.write files path contents with
      | ok files => rfl
      | error e => rfl

end

end Program

end ChannelConfig
