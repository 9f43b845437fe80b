import ChannelConfig.Program.Run
import ChannelConfig.Proofs.Channel.Influence
import ChannelConfig.Proofs.Disk.Lawful
import ChannelConfig.Proofs.Ledger.Genesis
import ChannelConfig.Proofs.Msp.Directory
import ChannelConfig.Proofs.Profile.Rebase
import ChannelConfig.Proofs.Program.Arguments

/-! Runs of the program. A run ends in one of four ways (`run_ends`), and in only one of them it has
written a file. `Requested` says which profile a request is about, from the text of the document on.
What a run writes as the block of a profile (`run_outputBlock_eq_ok_iff`) is shown by each run that
inspects it (`shows_of_contents`). -/

set_option autoImplicit false

namespace ChannelConfig.Program

open Wire FileSystem

variable {F : Type} [FileSystem F] {files files' : F} {r : Request} {supplies : Supplies}
  {path : Path}

/-! ## The end of a run -/

/-- How a run may end, and the files that it leaves. -/
inductive Ends (files : F) (r : Request) (supplies : Supplies) :
    F × Except Error Outcome → Prop where
  | failed (e : Error) (houtcome : outcome (view files) r supplies = .error e) :
      Ends files r supplies (files, .error e)
  | shown (result : Outcome) (houtcome : outcome (view files) r supplies = .ok result)
      (hfile : result.file = none) : Ends files r supplies (files, .ok result)
  | written (result : Outcome) (artifact : Artifact) (path : Path) (contents : Bytes) (files' : F)
      (houtcome : outcome (view files) r supplies = .ok result)
      (hfile : result.file = some (artifact, path, contents))
      (hwrite : write files path contents = .ok files') : Ends files r supplies (files', .ok result)
  | unwritten (result : Outcome) (artifact : Artifact) (path : Path) (contents : Bytes)
      (e : FileError) (houtcome : outcome (view files) r supplies = .ok result)
      (hfile : result.file = some (artifact, path, contents))
      (hwrite : write files path contents = .error e) :
      Ends files r supplies (files, .error (.unwritable artifact path e))

theorem run_ends (files : F) (r : Request) (supplies : Supplies) :
    Ends files r supplies (run files r supplies) := by
  rw [run]
  split
  · next e houtcome => exact .failed e houtcome
  · next result houtcome =>
    split
    · next hfile => exact .shown result houtcome hfile
    · next artifact path contents hfile =>
      split
      · next files' hwrite =>
        exact .written result artifact path contents files' houtcome hfile hwrite
      · next e hwrite => exact .unwritten result artifact path contents e houtcome hfile hwrite

/-- A run that fails leaves the files as they are. -/
theorem eq_of_run_error {e : Error} (h : run files r supplies = (files', .error e)) :
    files' = files := by
  have hends := run_ends files r supplies
  rw [h] at hends
  cases hends with
  | failed => rfl
  | unwritten => rfl

theorem run_of_outcome_error {e : Error} (h : outcome (view files) r supplies = .error e) :
    run files r supplies = (files, .error e) := by
  rw [run, h]

/-! ## Profiles that are loaded -/

theorem text_eq_ok_iff {v : FileView} {text : String} :
    v.text path = .ok text ↔ v.contents path = .ok (.ofText text) := by
  rw [FileView.text]
  cases v.contents path with
  | error e => exact ⟨nofun, nofun⟩
  | ok bs =>
    cases htext : Bytes.text? bs <;> simp [htext, ← Bytes.text?_eq_some_iff]

/-- A document is its text as data, each path in it as it is meant there. -/
theorem loadDocument_eq_ok_iff {v : FileView} {loaded : ProfileDocument} :
    loadDocument v path = .ok loaded ↔ ∃ text document, v.contents path = .ok (.ofText text) ∧
      (Toml.parse text).bind (ProfileDocument.ofDatum .ignored) = some document ∧
        loaded = document.mapPaths path.meantIn := by
  simp only [← text_eq_ok_iff]
  rw [loadDocument]
  constructor
  · intro h
    split at h
    · cases h
    · next text htext =>
      split at h
      · cases h
      · next document hparsed =>
        cases (document.mapPaths_meantIn path).symm.trans h
        exact ⟨text, document, htext, hparsed, rfl⟩
  · rintro ⟨text, document, htext, hparsed, rfl⟩
    simp only [htext, hparsed]
    exact document.mapPaths_meantIn path

/-- The profile that a request names, from the text of the document that it names: every reference
is replaced by the first shared organization of its name, and then every path by what it means in the
document, relative paths starting in the document's directory. -/
inductive Requested (v : FileView) (r : Request) : Profile → Prop where
  | intro (name text : String) (document : ProfileDocument) (listed : Profile)
      (hnamed : r.profile = some name)
      (htext : v.contents r.config = .ok (.ofText text))
      (hparsed : (Toml.parse text).bind (ProfileDocument.ofDatum .ignored) = some document)
      (hlisted : document.profiles.find? name = some listed)
      (hresolved : ∀ o ∈ listed.allOrganizations, ¬ o.Dangling document.organizations) :
      Requested v r
        ((listed.mapOrganizations (·.definition document.organizations)).mapPaths r.config.meantIn)

theorem loadProfile_eq_ok_iff {v : FileView} {profile : Profile} :
    loadProfile v r = .ok profile ↔ Requested v r profile := by
  rw [loadProfile]
  constructor
  · intro h
    split at h
    · cases h
    · next name hnamed =>
      obtain ⟨loaded, hloaded, h⟩ := exists_of_bind_eq_ok h
      obtain ⟨text, document, htext, hparsed, rfl⟩ := loadDocument_eq_ok_iff.1 hloaded
      have hmapped := eq_ok_of_mapError h
      rw [ProfileDocument.profile_mapPaths] at hmapped
      obtain ⟨resolved, hprofile, rfl⟩ := exists_of_map_eq_ok hmapped
      obtain ⟨listed, hlisted, hresolved, rfl⟩ := ProfileDocument.profile_eq_ok_iff.1 hprofile
      exact .intro name text document listed hnamed htext hparsed hlisted hresolved
  · rintro ⟨name, text, document, listed, hnamed, htext, hparsed, hlisted, hresolved⟩
    have hloaded := loadDocument_eq_ok_iff.2 ⟨text, document, htext, hparsed, rfl⟩
    have hprofile := ProfileDocument.profile_eq_ok_iff.2 ⟨listed, hlisted, hresolved, rfl⟩
    rw [hnamed]
    show (loadDocument v r.config >>= _) = _
    rw [hloaded]
    show ((document.mapPaths r.config.meantIn).profile name).mapError Error.config = _
    rw [ProfileDocument.profile_mapPaths, hprofile]
    rfl

/-! ## Blocks that are written -/

/-- The tree of the profile that a request names, which has an orderer. -/
structure Describes (v : FileView) (r : Request) (profile : Profile) (g : Group) : Prop where
  requested : Requested v r profile
  orders : profile.orderer.isSome = true
  built : profile.channelGroup v.loader = .ok g

theorem makeBlock_eq_ok_iff {v : FileView} {block : Block} :
    makeBlock v r supplies = .ok block ↔ ∃ profile g, Describes v r profile g ∧
      block = genesisBlock g r.channelId supplies.stamp := by
  constructor
  · intro h
    obtain ⟨profile, hprofile, h⟩ := exists_of_bind_eq_ok h
    split at h
    · cases h
    · next horderer =>
      obtain ⟨g, hbuilt, h⟩ := exists_of_bind_eq_ok h
      cases h
      rw [Bool.not_eq_true, Option.isNone_eq_false_iff] at horderer
      exact ⟨profile, g, ⟨loadProfile_eq_ok_iff.1 hprofile, horderer, eq_ok_of_mapError hbuilt⟩,
        rfl⟩
  · rintro ⟨profile, g, hdescribes, rfl⟩
    have horderer := Option.isNone_eq_false_iff.2 hdescribes.orders
    rw [makeBlock, loadProfile_eq_ok_iff.2 hdescribes.requested]
    show (if profile.orderer.isNone then _ else _) = _
    rw [horderer, hdescribes.built]
    rfl

/-- When a run that is to write a block succeeds, and what it does then. -/
theorem run_outputBlock_eq_ok_iff {result : Outcome} (haction : r.action = .outputBlock path) :
    run files r supplies = (files', .ok result) ↔ ∃ profile g,
      Describes (view files) r profile g ∧
        result = .block path (genesisBlock g r.channelId supplies.stamp) ∧
          write files path (encode (genesisBlock g r.channelId supplies.stamp)) = .ok files' := by
  constructor
  · intro h
    have hends := run_ends files r supplies
    rw [h] at hends
    cases hends with
    | shown _ houtcome hfile =>
      simp only [outcome, haction] at houtcome
      obtain ⟨block, -, rfl⟩ := exists_of_map_eq_ok houtcome
      cases hfile
    | written _ _ _ _ _ houtcome hfile hwrite =>
      simp only [outcome, haction] at houtcome
      obtain ⟨block, hblock, rfl⟩ := exists_of_map_eq_ok houtcome
      obtain ⟨profile, g, hdescribes, rfl⟩ := makeBlock_eq_ok_iff.1 hblock
      cases hfile
      exact ⟨profile, g, hdescribes, rfl, hwrite⟩
  · rintro ⟨profile, g, hdescribes, rfl, hwrite⟩
    have hblock : makeBlock (view files) r supplies = .ok _ :=
      makeBlock_eq_ok_iff.2 ⟨profile, g, hdescribes, rfl⟩
    simp only [run, outcome, haction, hblock, Except.map, Outcome.file, hwrite]

/-! ## Blocks that are shown -/

/-- Each run that inspects the block at a path succeeds and shows the tree. -/
def Shows (files : F) (path : Path) (g : Group) : Prop :=
  ∀ r supplies, r.action = .inspectBlock path →
    run files r supplies =
      (files, .ok (.view (Config.toJson { sequence := 0, channelGroup := some g })))

theorem shows_of_contents {channelId : String} {stamp : Stamp} {g : Group}
    (hcontents : (view files).contents path = .ok (encode (genesisBlock g channelId stamp)))
    (hlength : (encode (genesisBlock g channelId stamp)).length < UInt64.size)
    (hnesting : g.nesting ≤ 98) : Shows files path g := by
  intro r supplies haction
  have hdecode := decode_encode_of_flat (M := Block) (by decide) hlength
  have hconfig := config_genesisBlock hlength
  rw [if_pos hnesting] at hconfig
  have hinspect : inspect (view files) path =
      .ok (Config.toJson { sequence := 0, channelGroup := some g }) := by
    simp only [inspect, hcontents, mapError_ok, bind, Except.bind, hdecode, hconfig]
    rfl
  rw [run, outcome, haction]
  simp only [hinspect]
  rfl

/-! ## Two runs -/

/-- A block that one run writes is what a run after it shows; a run that fails writes nothing. -/
theorem outputBlock_then_inspectBlock [LawfulFileSystem F] {args : List String}
    {surroundings : Option String} (hr : Command.ofArguments args surroundings = .request r)
    (files : F) (supplies : Supplies) :
    (∀ path files' result, r.action = .outputBlock path →
      run files r supplies = (files', .ok result) →
      ChangesOnly path files files' ∧
        (∃ profile g, Describes (view files) r profile g ∧
          write files path (encode (genesisBlock g r.channelId supplies.stamp)) = .ok files' ∧
            Shows files' path g) ∧
        ∀ surroundings', ∃ r', Command.ofArguments
          ["--config=" ++ r.config.text, "--inspect-block=" ++ path.text] surroundings' =
            .request r' ∧ r'.action = .inspectBlock path) ∧
    (∀ files' e, run files r supplies = (files', .error e) → files' = files) ∧
    (∀ path, r.action = .outputBlock path ∨ r.action = .outputCreateChannelTx path →
      r.profile = none → run files r supplies = (files, .error .noProfile)) ∧
    ∀ path profile, r.action = .outputBlock path → Requested (view files) r profile →
      profile.orderer = none → run files r supplies = (files, .error .noOrderer) := by
  refine ⟨fun path files' result haction h => ?_, fun files' e h => eq_of_run_error h,
    fun path haction hnone => ?_, fun path profile haction hrequested hnone => ?_⟩
  · obtain ⟨profile, g, hdescribes, -, hwrite⟩ := (run_outputBlock_eq_ok_iff haction).1 h
    obtain ⟨hconfig, hpath⟩ := Command.paths_of_ofArguments hr
    rw [haction] at hpath
    have hshallow := (Profile.isSection_of_channelGroup hdescribes.built).isNew.nesting_le
    refine ⟨LawfulFileSystem.changesOnly_of_write hwrite, ⟨profile, g, hdescribes, hwrite, ?_⟩,
      fun surroundings' => Command.exists_request_inspectBlock hconfig hpath⟩
    exact shows_of_contents (LawfulFileSystem.sameFile_self files path _ _ hwrite)
      (LawfulFileSystem.length_lt_of_write hwrite) (by omega)
  · refine run_of_outcome_error ?_
    rcases haction with haction | haction
    · simp only [outcome, haction, makeBlock, loadProfile, hnone]
      rfl
    · simp only [outcome, haction, makeTransaction, loadProfile, hnone]
      rfl
  · have hprofile := loadProfile_eq_ok_iff.2 hrequested
    refine run_of_outcome_error ?_
    simp only [outcome, haction, makeBlock, hprofile, bind, Except.bind, hnone]
    rfl

/-! ## A channel on a disk -/

/-- An organization of a shared list, and an ordering service that refers to it. -/
def orderingText : String :=
  "[[organizations]]
name = 'OrdererOrg'
id = 'OrdererMSP'
msp_dir = 'msp'
[organizations.policies]
Readers = \x7btype = 'ImplicitMeta', rule = 'ANY Admins'\x7d
Writers = \x7btype = 'ImplicitMeta', rule = 'ANY Admins'\x7d
Admins = \x7btype = 'ImplicitMeta', rule = 'ANY Admins'\x7d
[profiles.Ordering.policies]
Readers = \x7btype = 'ImplicitMeta', rule = 'ANY Admins'\x7d
Writers = \x7btype = 'ImplicitMeta', rule = 'ANY Admins'\x7d
Admins = \x7btype = 'ImplicitMeta', rule = 'ANY Admins'\x7d
[profiles.Ordering.orderer]
organizations = ['OrdererOrg']
[profiles.Ordering.orderer.policies]
Readers = \x7btype = 'ImplicitMeta', rule = 'ANY Admins'\x7d
Writers = \x7btype = 'ImplicitMeta', rule = 'ANY Admins'\x7d
Admins = \x7btype = 'ImplicitMeta', rule = 'ANY Admins'\x7d
BlockValidation = \x7btype = 'ImplicitMeta', rule = 'ANY Admins'\x7d
"

/-- The organization, with its material in a directory. -/
def ordererOrganization (directory : Path) : Organization where
  name := "OrdererOrg"
  mspId := "OrdererMSP"
  mspDir := directory
  policies := PolicyDef.standard

/-- The ordering service with an organization in it. -/
def orderingWith (o : Organization) : Profile where
  orderer := some {
    organizations := [o]
    policies := PolicyDef.standard.insert blockValidationPolicy (.implicitMeta "ANY Admins") }
  policies := PolicyDef.standard

/-- What the text says: the directory is seen from that of the document. -/
def orderingDocument : ProfileDocument where
  organizations := [ordererOrganization ⟨"msp"⟩]
  profiles := .ofList [("Ordering", orderingWith (.named "OrdererOrg"))]

/-- A disk with the document on it, and next to it a directory with one certificate. -/
def orderingDisk : Disk :=
  (({ workingDirectory := ["work"] } : Disk).addFile ["work", "net", "msp", "cacerts", "ca.pem"]
    (.ofText FileView.certificateText)).addFile ["work", "net", "configtx.toml"]
      (.ofText orderingText)

/-- The material as it is in the directory. -/
def orderingStore : MaterialStore where
  organizations := .ofList [("OrdererMSP", { rootCerts := [.ofText FileView.certificateText] })]

def orderingRequest : Request where
  config := ⟨"net/configtx.toml"⟩
  profile := some "Ordering"
  channelId := "mychannel"
  action := .outputBlock ⟨"genesis.block"⟩
  signer := none

def orderingSupplies : Supplies := ⟨⟨.ofBytes [1, 2, 3], 1700000000⟩, .ofBytes [4]⟩

set_option maxRecDepth 10000 in
theorem parse_orderingText : (Toml.parse orderingText).bind (ProfileDocument.ofDatum .ignored) =
    some orderingDocument := by
  have hchars : orderingText.toList = _ := String.toList_ofList
  rw [Toml.parse, hchars]
  decide +kernel

/-- The profile of the request has the directory as seen from where the program runs. -/
theorem requested_ordering : Requested orderingDisk.view orderingRequest
    (orderingWith (ordererOrganization ⟨"net/msp"⟩)) := by
  have hplace : orderingDisk.place orderingRequest.config = .ok ["work", "net", "configtx.toml"] :=
    eq_ok_of_toOption (by decide +kernel)
  have htext : orderingDisk.view.contents orderingRequest.config = .ok (.ofText orderingText) :=
    Disk.contents_eq_ok_iff.2 ⟨_, ⟨by decide +kernel, hplace⟩, Node.seen?_put_self⟩
  have hprofile : orderingWith (ordererOrganization ⟨"net/msp"⟩) =
      ((orderingWith (.named "OrdererOrg")).mapOrganizations
        (·.definition orderingDocument.organizations)).mapPaths orderingRequest.config.meantIn := by
    decide +kernel
  rw [hprofile]
  exact .intro "Ordering" orderingText orderingDocument _ rfl htext parse_orderingText rfl
    (by decide +kernel)

theorem load_orderingDisk :
    orderingDisk.view.loader.loadMsp ⟨"net/msp"⟩ "OrdererMSP" "bccsp" =
      .ok { rootCerts := [.ofText FileView.certificateText] } := by
  have hcacerts : orderingDisk.view.names ⟨"net/msp/cacerts"⟩ = .ok ["ca.pem"] :=
    eq_ok_of_toOption (by decide +kernel)
  refine FileView.material_eq_ok_iff.2 ⟨rfl, ?_, by decide⟩
  refine ⟨(FileView.pemDirectory_of_ordered hcacerts (by decide)).trans ?_, ?_, ?_, ?_, ?_, ?_, rfl⟩
  all_goals exact eq_ok_of_toOption (by decide +kernel)

theorem channelGroup_orderingDisk :
    (orderingWith (ordererOrganization ⟨"net/msp"⟩)).channelGroup orderingDisk.view.loader =
      (orderingWith (ordererOrganization ⟨"net/msp"⟩)).channelGroup orderingStore.loader := by
  refine Profile.channelGroup_congr ⟨fun o ho _ => ?_, fun s hs _ raft hraft => ?_⟩
  · cases List.mem_singleton.1 ho
    exact load_orderingDisk
  · cases hs
    cases hraft

theorem exists_run_orderingRequest : ∃ files' result,
    run orderingDisk orderingRequest orderingSupplies = (files', .ok result) := by
  have hbuilds : (((orderingWith (ordererOrganization ⟨"net/msp"⟩)).channelGroup
      orderingStore.loader).toOption.bind fun g => (orderingDisk.write ⟨"genesis.block"⟩
        (encode (genesisBlock g "mychannel" orderingSupplies.stamp))).toOption).isSome = true := by
    decide +kernel
  obtain ⟨files', hfiles⟩ := Option.isSome_iff_exists.1 hbuilds
  obtain ⟨g, hg, hwrite⟩ := Option.bind_eq_some_iff.1 hfiles
  have hbuilt := channelGroup_orderingDisk.trans (eq_ok_of_toOption hg)
  exact ⟨files', _, (run_outputBlock_eq_ok_iff rfl).2 ⟨_, g, ⟨requested_ordering, rfl, hbuilt⟩, rfl,
    eq_ok_of_toOption hwrite⟩⟩

theorem outputBlock_then_inspectBlock_ordering : ∃ files' result g,
    Command.ofArguments ["--config=net/configtx.toml", "--profile", "Ordering",
      "--output-block", "genesis.block"] none = .request orderingRequest ∧
    run orderingDisk orderingRequest orderingSupplies = (files', .ok result) ∧
    ChangesOnly ⟨"genesis.block"⟩ orderingDisk files' ∧
    (orderingWith (ordererOrganization ⟨"net/msp"⟩)).channelGroup orderingDisk.view.loader = .ok g ∧
    Shows files' ⟨"genesis.block"⟩ g := by
  have hr : Command.ofArguments ["--config=net/configtx.toml", "--profile", "Ordering",
      "--output-block", "genesis.block"] none = .request orderingRequest := by decide +kernel
  obtain ⟨files', result, hrun⟩ := exists_run_orderingRequest
  obtain ⟨hsuccess, -⟩ := outputBlock_then_inspectBlock hr orderingDisk orderingSupplies
  obtain ⟨hchanges, ⟨profile, g, hdescribes, -, hshows⟩, -⟩ := hsuccess _ files' result rfl hrun
  have hprofile := (loadProfile_eq_ok_iff.2 hdescribes.requested).symm.trans
    (loadProfile_eq_ok_iff.2 requested_ordering)
  cases hprofile
  exact ⟨files', result, g, hr, hrun, hchanges, hdescribes.built, hshows⟩

end ChannelConfig.Program
