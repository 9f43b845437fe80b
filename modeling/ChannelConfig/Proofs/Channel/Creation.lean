import ChannelConfig.Channel.Creation
import ChannelConfig.Proofs.Channel.Build
import ChannelConfig.Proofs.Ledger.Signing

/-! Channel creation. Template and tree differ in the settings of the application group only, so the
update says nothing of any other child group (`Group.delta_setGroup`), and of that one it writes all
settings anew (`Group.delta_cleared`). A tree that was built has a policy there, which is why there
always is a difference. -/

set_option autoImplicit false

namespace ChannelConfig

open Wire

/-! ## Settings from nothing -/

/-- New leaves are written as they are. -/
theorem writeLeaves_nil {α : Type} [DecidableEq α] {m : NameMap (Leaf α)}
    (h : ∀ name l, m.find? name = some l → l.version = 0) : writeLeaves .nil m = m := by
  refine SortedFrom.ext fun name => ?_
  rw [find?_writeLeaves]
  cases hl : m.find? name with
  | none => rfl
  | some l =>
    obtain ⟨version, content, modPolicy⟩ := l
    cases h name _ hl
    rfl

namespace Group

/-- The same group without settings. -/
def cleared (g : Group) : Group := { g with values := .nil, policies := .nil }

/-- The settings of a new group that had none are written, its child groups are not. -/
theorem delta_cleared {g : Group} (h : g.NewHere) : g.cleared.delta g = {
    read := {}
    write := { g with version := 1, groups := .nil } } := by
  have hsame : ∀ key, g.cleared.groups.find? key = g.groups.find? key := fun _ => rfl
  have hread : (g.cleared.delta g).read = {} := by
    refine ext_of_find? h.version rfl (fun key => ?_) (fun _ => rfl) (fun _ => rfl)
    exact (find?_groups_delta_of_eq (hsame key)).1
  have hwrite : (g.cleared.delta g).write = { g with version := 1, groups := .nil } := by
    refine ext_of_find? ?_ rfl (fun key => ?_) (fun key => ?_) (fun key => ?_)
    · show g.version + 1 = 1
      rw [h.version]
      rfl
    · exact (find?_groups_delta_of_eq (hsame key)).2
    · exact congrArg _ (writeLeaves_nil h.values)
    · exact congrArg _ (writeLeaves_nil h.policies)
  rw [← hread, ← hwrite]

/-- A group with a policy differs from the same one without settings. -/
theorem not_sameContent_cleared {g : Group} {name : String}
    (h : g.policies.contains name = true) : ¬ g.cleared.SameContent g := by
  intro hsame
  obtain ⟨policy, hpolicy⟩ := g.policies.contains_iff.1 h
  have hname := (sameContent_iff.1 hsame).2.2.1 name
  rw [hpolicy] at hname
  cases hname

end Group

/-! ## The update -/

namespace Group

/-- What is read to create a channel with such a tree: the root with its settings, an application
group about which nothing is known, and a consortium of any name. -/
def creationReadSet (tree : Group) : Group where
  version := 0
  groups := .ofList [(applicationGroup, {})]
  values := tree.values.insert "Consortium" { version := 0, content := [], modPolicy := "" }
  policies := tree.policies
  modPolicy := ""

/-- What is written to create a channel with such a tree and application group. -/
def creationWriteSet (tree application : Group) (consortium : Consortium) : Group where
  version := 1
  groups := .ofList [(applicationGroup, {
    version := 1
    groups := .nil
    values := application.values
    policies := application.policies
    modPolicy := adminsPolicy })]
  values := tree.values.insert "Consortium" {
    version := 0, content := Wire.encode consortium, modPolicy := "" }
  policies := tree.policies
  modPolicy := adminsPolicy

theorem nesting_le_of_singleton {g child : Group} {name : String} {n : Nat}
    (hg : g.groups = .ofList [(name, child)]) (hchild : child.nesting ≤ n) (hn : 1 ≤ n) :
    g.nesting ≤ n + 2 := by
  refine nesting_le_of_children (by omega) fun key c hc => ?_
  rw [hg, SortedFrom.find?_ofList_singleton] at hc
  split at hc
  · cases hc
    omega
  · cases hc

theorem nesting_creationReadSet_le (tree : Group) : tree.creationReadSet.nesting ≤ 5 :=
  nesting_le_of_singleton rfl (by decide) (by decide)

theorem nesting_creationWriteSet_le (tree application : Group) (consortium : Consortium) :
    (tree.creationWriteSet application consortium).nesting ≤ 5 := by
  refine nesting_le_of_singleton rfl ?_ (by decide)
  exact nesting_le_of_children (Nat.le_refl 3) fun _ _ hc => nomatch hc

end Group

namespace Profile

/-- Past the checks of the profile, an update is a comparison with the consortium put over it. -/
theorem creationUpdate_eq_map {loader : MaterialLoader} {p : Profile} {tree : Group} {name : String}
    (hsome : p.application.isSome) (hname : p.consortiumName? = some name)
    (htree : p.channelGroup loader = .ok tree) (channelId : String) (template : Group) :
    p.creationUpdate loader channelId template =
      (Result.within .comparison (updateBetween template tree)).map fun update =>
        { update with
          channelId
          readSet := update.readSet.map (.withConsortium [])
          writeSet := update.writeSet.map
            (.withConsortium (Wire.encode { name : Consortium })) } := by
  rw [creationUpdate, if_neg (by simp [Option.isSome_iff_ne_none.1 hsome]), hname, htree]
  rfl

variable {loader : MaterialLoader} {p : Profile} {tree application : Group}
  (htree : p.channelGroup loader = .ok tree)
  (happlication : tree.groups.find? applicationGroup = some application)

include htree happlication

theorem creationTemplate_eq : p.creationTemplate loader =
    .ok (tree.setGroup applicationGroup application.cleared) := by
  rw [creationTemplate, htree]
  show Except.bind (.ok tree) _ = _
  simp only [Except.bind, happlication]
  rfl

theorem creationUpdate_eq {name : String} (channelId : String) (hsome : p.application.isSome)
    (hname : p.consortiumName? = some name) (hsection : application.IsSection 1) :
    p.creationUpdate loader channelId (tree.setGroup applicationGroup application.cleared) = .ok {
      channelId
      readSet := some tree.creationReadSet
      writeSet := some (tree.creationWriteSet application { name }) } := by
  have hroot := isSection_of_channelGroup htree
  -- the policy of the admins is what the template always lacks, so there is an update
  have hcleared := Group.not_sameContent_cleared hsection.policies
  have hdiffers : ¬ (tree.setGroup applicationGroup application.cleared).SameContent tree := by
    intro hsame
    have hchild := (Group.sameContent_iff.1 hsame).2.2.2 applicationGroup
    rw [Group.find?_groups_setGroup, if_pos rfl, happlication] at hchild
    exact hcleared (Option.some.inj hchild)
  have hupdate := Group.updateBetween_eq_ok_iff.2 ⟨hdiffers, rfl⟩
  rw [Group.delta_setGroup happlication (Group.diff?_eq_some hcleared),
    Group.delta_cleared hsection.isNew.here, hroot.isNew.here.version, hroot.modPolicy,
    hsection.modPolicy] at hupdate
  rw [creationUpdate_eq_map hsome hname htree, hupdate]
  rfl

end Profile

/-! ## The transaction -/

theorem ConfigUpdate.nesting_creation_le (channelId : String) (tree application : Group)
    (consortium : Consortium) : nesting ({
      channelId
      readSet := some tree.creationReadSet
      writeSet := some (tree.creationWriteSet application consortium) } : ConfigUpdate) ≤ 6 := by
  refine ConfigUpdate.nesting_le ?_ ?_ rfl
  · rintro g ⟨⟩
    exact Nat.succ_le_succ tree.nesting_creationReadSet_le
  · rintro g ⟨⟩
    exact Nat.succ_le_succ (tree.nesting_creationWriteSet_le application consortium)

namespace Profile

variable {loader : MaterialLoader} {p : Profile} {tree : Group} {name : String}
  {signer : Option Signer}

/-- Once there is an update, only a signer can keep it from being sent. -/
theorem creationTransaction_of_update {channelId : String} {template : Group}
    {update : ConfigUpdate} (hsigner : ∀ s, signer = some s → s.Reliable)
    (htemplate : p.creationTemplate loader = .ok template)
    (hupdate : p.creationUpdate loader channelId template = .ok update) (updateNonce : Nonce)
    (stamp : Stamp) :
    ∃ e header signed, p.creationTransaction loader channelId signer updateNonce stamp = .ok e ∧
      signed.configUpdate = encode update ∧
      e.payload = encode (Address.payload { type := .configUpdate, channelId } stamp.seconds header
        (encode (signed : ConfigUpdateEnvelope))) := by
  have hmade := exists_signedEnvelope hsigner { type := .configUpdate, channelId } stamp
  rw [creationTransaction, htemplate]
  cases signer with
  | none =>
    let unsigned : ConfigUpdateEnvelope := { configUpdate := encode update }
    obtain ⟨e, header, he, hpayload⟩ := hmade (encode unsigned)
    refine ⟨e, header, unsigned, ?_, rfl, hpayload⟩
    show (p.creationUpdate loader channelId template >>= _) = _
    rw [hupdate]
    exact he
  | some s =>
    obtain ⟨signed, hsigned, hcontent⟩ := ConfigUpdateEnvelope.exists_sign (hsigner s rfl)
      { configUpdate := encode update } updateNonce
    obtain ⟨e, header, he, hpayload⟩ := hmade (encode signed)
    refine ⟨e, header, signed, ?_, hcontent, hpayload⟩
    show (p.creationUpdate loader channelId template >>= _) = _
    rw [hupdate]
    show (ConfigUpdateEnvelope.sign { configUpdate := encode update } s updateNonce >>= _) = _
    rw [hsigned]
    exact he

/-- A channel can be created from every profile with an application and a consortium whose tree can
be built, and the transaction carries the update from the template to that tree. -/
theorem creationTransaction_carries (hsome : p.application.isSome)
    (hconsortium : p.consortium = some name) (hname : name ≠ "")
    (htree : p.channelGroup loader = .ok tree) (hsigner : ∀ s, signer = some s → s.Reliable)
    (channelId : String) (updateNonce : Nonce) (stamp : Stamp) : ∃ e application,
      p.creationTransaction loader channelId signer updateNonce stamp = .ok e ∧
      tree.groups.find? applicationGroup = some application ∧ application.NewHere ∧
      (e.payload.length < UInt64.size → e.Carries {
        channelId
        readSet := some tree.creationReadSet
        writeSet := some (tree.creationWriteSet application { name }) }) := by
  have hpresent : p.consortiumName? = some name := by
    rw [consortiumName?, hconsortium, Option.filter_some, if_pos (by simpa using hname)]
  obtain ⟨application, happlication, hsection⟩ := exists_of_channelGroup htree hsome
  have htemplate := creationTemplate_eq htree happlication
  have hupdate := creationUpdate_eq htree happlication channelId hsome hpresent hsection
  obtain ⟨e, header, signed, he, hcontent, hpayload⟩ :=
    creationTransaction_of_update hsigner htemplate hupdate updateNonce stamp
  refine ⟨e, application, he, happlication, hsection.isNew.here, fun hlength => ?_⟩
  exact Envelope.carries_of_payload hpayload hcontent
    (Nat.le_trans (ConfigUpdate.nesting_creation_le ..) (by decide)) hlength

/-- Signs with the beginning of what it is given. -/
def echo : Signer where
  serialize := .ok [1]
  sign message := .ok (message.take 4)

theorem creationTransaction_carries_small : ∃ e : Envelope,
    small.creationTransaction (MaterialStore.loader {}) "mychannel" echo (.ofBytes [1])
      ⟨.ofBytes [2], 1700000000⟩ = .ok e ∧
    ∃ application, Group.small.groups.find? applicationGroup = some application ∧
      e.Carries {
        channelId := "mychannel"
        readSet := some Group.small.creationReadSet
        writeSet := some
          (Group.small.creationWriteSet application { name := "SampleConsortium" }) } := by
  have hecho : ∀ s, some echo = some s → s.Reliable := by
    rintro s ⟨⟩
    exact ⟨⟨_, rfl⟩, fun _ => ⟨_, rfl⟩⟩
  have hshort : ∀ e, (small.creationTransaction (MaterialStore.loader {}) "mychannel" echo
      (.ofBytes [1]) ⟨.ofBytes [2], 1700000000⟩).toOption = some e →
      e.payload.length < UInt64.size := by
    decide +kernel
  obtain ⟨e, application, he, happlication, -, hcarries⟩ :=
    creationTransaction_carries rfl rfl (by decide) channelGroup_small hecho "mychannel"
      (.ofBytes [1]) ⟨.ofBytes [2], 1700000000⟩
  refine ⟨e, he, application, happlication, hcarries (hshort e ?_)⟩
  rw [he]
  rfl

end Profile

end ChannelConfig
