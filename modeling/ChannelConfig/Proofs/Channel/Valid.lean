import ChannelConfig.Proofs.Channel.Contents

/-! Which profiles describe a channel. `Profile.Valid` lists what a profile must have, section by
section and without regard to the order in which a tree is built; `channelGroup_ok_iff_valid` says
that building succeeds on these profiles and on no others. Every builder decides its part
(`Result.Decides`), so the proofs follow the builders, one condition for each step. -/

set_option autoImplicit false

namespace ChannelConfig

/-! ## What is asked of a profile -/

/-- The type of the policy is known, and its rule can be read as one of that type. -/
def PolicyDef.Valid (d : PolicyDef) : Prop :=
  (d.type = "ImplicitMeta" ∧ ∃ policy, AccessPolicy.parseImplicitMeta d.rule = .ok policy) ∨
    (d.type = "Signature" ∧ ∃ envelope, Policy.compile d.rule = .ok envelope)

structure PoliciesValid (required : List String) (policies : NameMap PolicyDef) : Prop where
  present : ∀ name ∈ required, policies.contains name = true
  valid : ∀ name d, policies.find? name = some d → d.Valid

def IsPositiveDuration (text : String) : Prop :=
  ∃ d, Duration.parse text = .ok d ∧ 0 < d.nanoseconds

/-- The material of the organization can be found and makes it a member. -/
structure Organization.IsMember (loader : MaterialLoader) (o : Organization) : Prop where
  mspType : o.mspType = "bccsp"
  material : ∃ m, loader.loadMsp o.mspDir o.mspId o.mspType = .ok m ∧ m.rootCerts ≠ []
  policies : PoliciesValid ["Admins", "Readers", "Writers"] o.policies

/-- Of a foreign organization nothing is asked. -/
def Organization.Valid (loader : MaterialLoader) (o : Organization) : Prop :=
  o.skipAsForeign = true ∨ o.IsMember loader

structure ConsenterDef.Loads (loader : MaterialLoader) (c : ConsenterDef) : Prop where
  client : ∃ bytes, loader.readPath c.clientTlsCert = .ok bytes
  server : ∃ bytes, loader.readPath c.serverTlsCert = .ok bytes

structure RaftSection.Valid (loader : MaterialLoader) (s : RaftSection) : Prop where
  consenters : ∀ c ∈ s.consenters, c.Loads loader
  tickInterval : IsPositiveDuration s.options.tickInterval

namespace OrdererSection

/-- The type of consensus is known, and the cluster is described if the type needs one. -/
def ConsensusValid (loader : MaterialLoader) (s : OrdererSection) : Prop :=
  s.ordererType = "solo" ∨ s.ordererType = "kafka" ∨
    (s.ordererType = "etcdraft" ∧ ∃ raft, s.etcdRaft = some raft ∧ raft.Valid loader)

structure Valid (loader : MaterialLoader) (s : OrdererSection) : Prop where
  policies : PoliciesValid ["Admins", "Readers", "Writers", "BlockValidation"] s.policies
  batchTimeout : IsPositiveDuration s.batchTimeout
  consensus : s.ConsensusValid loader
  organizations : ∀ o ∈ s.organizations, o.Valid loader

end OrdererSection

structure ApplicationSection.Valid (loader : MaterialLoader) (s : ApplicationSection) : Prop where
  policies : PoliciesValid ["Admins", "Readers", "Writers"] s.policies
  organizations : ∀ o ∈ s.organizations, o.Valid loader

structure Profile.Valid (loader : MaterialLoader) (p : Profile) : Prop where
  policies : PoliciesValid ["Admins", "Readers", "Writers"] p.policies
  orderer : ∀ s, p.orderer = some s → s.Valid loader
  application : ∀ s, p.application = some s → s.Valid loader
  consortiums : ∀ cs, p.consortiums = some cs → ∀ name s, cs.find? name = some s →
    ∀ o ∈ s.organizations, o.Valid loader

open Result

/-! ## Policies -/

theorem decides_ofPolicy {A : Type} (x : Except PolicyFault A) :
    (Result.ofPolicy x).Decides (∃ a, x = .ok a) := by
  cases x with
  | error fault => exact decides_error .parse fun ⟨_, h⟩ => nomatch h
  | ok a => exact decides_ok a ⟨a, rfl⟩

theorem PolicyDef.decides_compile (d : PolicyDef) : d.compile.Decides d.Valid := by
  rw [compile]
  by_cases hmeta : d.type = implicitMetaType
  · rw [if_pos hmeta]
    refine ((decides_ofPolicy _).within _).congr ⟨fun h => .inl ⟨hmeta, h⟩, ?_⟩
    rintro (⟨-, h⟩ | ⟨hsignature, -⟩)
    · exact h
    · rw [hmeta] at hsignature
      exact absurd hsignature (by decide)
  · rw [if_neg hmeta]
    by_cases hsignature : d.type = signatureType
    · rw [if_pos hsignature]
      refine ((decides_ofPolicy _).within _).congr ⟨fun ⟨policy, h⟩ => ?_, ?_⟩
      · obtain ⟨envelope, henvelope, -⟩ := exists_of_map_eq_ok h
        exact .inr ⟨hsignature, envelope, henvelope⟩
      · rintro (⟨h, -⟩ | ⟨-, envelope, h⟩)
        · exact absurd h hmeta
        · exact ⟨.signature envelope, by rw [AccessPolicy.parseSignature, h]; rfl⟩
    · rw [if_neg hsignature]
      refine decides_error .validation ?_
      rintro (⟨h, -⟩ | ⟨h, -⟩)
      · exact hmeta h
      · exact hsignature h

namespace Group

theorem decides_compilePolicies (modPolicy : String) (g : Group) (ds : List (String × PolicyDef)) :
    (g.compilePolicies modPolicy ds).2.Decides (∀ e ∈ ds, e.2.Valid) := by
  induction ds generalizing g with
  | nil => exact decides_ok () nofun
  | cons e ds ih =>
    obtain ⟨name, d⟩ := e
    have hd := d.decides_compile
    rw [compilePolicies]
    split
    · next policy hcompile =>
      refine (ih (g.setPolicy name policy modPolicy)).congr ?_
      rw [List.forall_mem_cons]
      exact (and_iff_right (hd.of_ok hcompile)).symm
    · next e hcompile =>
      exact decides_error (hd.ofInput e hcompile) fun hall =>
        hd.not_of_error hcompile (hall _ (List.mem_cons_self ..))

theorem decides_ofPolicies (policies : NameMap PolicyDef) {required : List String}
    (hne : required ≠ []) :
    (ofPolicies policies required).Decides (PoliciesValid required policies) := by
  rw [ofPolicies_eq]
  have hcompile := decides_compilePolicies adminsPolicy (governedBy adminsPolicy) policies.toList
  refine ((decides_requirePolicies policies hne).bind fun _ _ => hcompile.map _).congr
    ⟨fun ⟨hpresent, hvalid⟩ => ?_, fun h => ?_⟩
  · exact ⟨hpresent, fun name d hd => hvalid (name, d) (policies.find?_eq_some_iff.1 hd)⟩
  · exact ⟨h.present, fun e he => h.valid e.1 e.2 (policies.find?_eq_some_iff.2 he)⟩

end Group

/-! ## Organizations -/

theorem decides_verifyingMsp (mspId : String) (m : Material) :
    (verifyingMsp mspId m).Decides (m.rootCerts ≠ []) := by
  rw [verifyingMsp]
  split
  · next hempty => exact decides_error .validation fun hne => hne (List.isEmpty_iff.1 hempty)
  · next hempty => exact decides_ok _ fun hnil => hempty (List.isEmpty_iff.2 hnil)

section

variable (loader : MaterialLoader)

namespace Organization

theorem decides_memberGroup (o : Organization) : (o.memberGroup loader).Decides (o.IsMember loader) := by
  rw [memberGroup]
  split
  · next htype => exact decides_error .validation fun h => htype h.mspType
  · next htype =>
    split
    · next fault hload =>
      refine decides_error .collaborator fun h => ?_
      obtain ⟨m, hm, -⟩ := h.material
      rw [hload] at hm
      cases hm
    · next m hload =>
      have hpolicies := (Group.decides_ofPolicies o.policies
        (by decide : standardPolicies ≠ [])).within (.organizationPolicies o.name)
      refine ((decides_verifyingMsp o.mspId m).bind fun msp _ =>
        hpolicies.bind (Q := True) fun g _ => decides_ok _ trivial).congr ⟨?_, fun h => ?_⟩
      · rintro ⟨hroots, hvalid, -⟩
        exact ⟨Decidable.not_not.1 htype, ⟨m, hload, hroots⟩, hvalid⟩
      · obtain ⟨m', hm', hroots⟩ := h.material
        rw [hload] at hm'
        cases hm'
        exact ⟨hroots, h.policies, trivial⟩

theorem decides_groupWith (extras : Group → Group) (o : Organization) :
    (o.groupWith extras loader).Decides (o.Valid loader) := by
  rw [groupWith]
  split
  · next hforeign => exact decides_ok _ (.inl hforeign)
  · next hforeign =>
    refine ((o.decides_memberGroup loader).map extras).congr ?_
    rw [Organization.Valid, or_iff_right hforeign]

end Organization

theorem Group.decides_withOrganizations {place : String → Place}
    {build : Organization → Result Group} {P : Organization → Prop}
    (hbuild : ∀ o, (build o).Decides (P o)) (g : Group) (os : List Organization) :
    (g.withOrganizations place build os).Decides (∀ o ∈ os, P o) := by
  induction os generalizing g with
  | nil => exact decides_ok g nofun
  | cons o os ih =>
    refine (((hbuild o).within (place o.name)).bind fun child _ =>
      ih (g.setGroup o.name child)).congr ?_
    rw [List.forall_mem_cons]

/-! ## The orderer -/

theorem decides_checkDuration (setting value : String) :
    (checkDuration setting value).Decides (IsPositiveDuration value) := by
  rw [checkDuration]
  split
  · next d hparse =>
    split
    · next hzero =>
      refine decides_error .validation fun ⟨d', hd', hpos⟩ => ?_
      rw [hparse] at hd'
      cases hd'
      omega
    · next hzero => exact decides_ok () ⟨d, hparse, Nat.pos_of_ne_zero hzero⟩
  · next fault hparse =>
    refine decides_error .validation fun ⟨d', hd', _⟩ => ?_
    rw [hparse] at hd'
    cases hd'

theorem decides_readPath (path : Path) (task : Task) :
    Decides ((loader.readPath path).mapError fun fault => .collaborator [] task (.load fault))
      (∃ bytes, loader.readPath path = .ok bytes) := by
  cases loader.readPath path with
  | error fault => exact decides_error .collaborator fun ⟨_, h⟩ => nomatch h
  | ok bytes => exact decides_ok bytes ⟨bytes, rfl⟩

theorem ConsenterDef.decides_load (c : ConsenterDef) : (c.load loader).Decides (c.Loads loader) := by
  refine ((decides_readPath loader c.clientTlsCert _).bind fun client _ =>
    (decides_readPath loader c.serverTlsCert _).bind (Q := True) fun server _ =>
      decides_ok _ trivial).congr ⟨?_, fun h => ⟨h.client, h.server, trivial⟩⟩
  rintro ⟨hclient, hserver, -⟩
  exact ⟨hclient, hserver⟩

theorem RaftSection.decides_metadata (s : RaftSection) :
    (s.metadata loader).Decides (s.Valid loader) := by
  refine ((decides_mapM fun c _ => c.decides_load loader).bind fun consenters _ =>
    (decides_checkDuration _ s.options.tickInterval).bind (Q := True) fun _ _ =>
      decides_ok _ trivial).congr ⟨?_, fun h => ⟨h.consenters, h.tickInterval, trivial⟩⟩
  rintro ⟨hconsenters, hinterval, -⟩
  exact ⟨hconsenters, hinterval⟩

namespace OrdererSection

theorem decides_consensusMetadata (s : OrdererSection) :
    (s.consensusMetadata loader).Decides (s.ConsensusValid loader) := by
  rw [consensusMetadata]
  split
  · next hplain =>
    refine decides_ok [] ?_
    rcases hplain with hsolo | hkafka
    · exact .inl hsolo
    · exact .inr (.inl hkafka)
  · next hplain =>
    obtain ⟨hsolo, hkafka⟩ := not_or.1 hplain
    have hraft : s.ConsensusValid loader ↔
        s.ordererType = "etcdraft" ∧ ∃ raft, s.etcdRaft = some raft ∧ raft.Valid loader := by
      exact (or_iff_right hsolo).trans (or_iff_right hkafka)
    split
    · next htype =>
      split
      · next raft hsection =>
        refine ((raft.decides_metadata loader).map _).congr ⟨fun h => ?_, fun h => ?_⟩
        · exact hraft.2 ⟨htype, raft, hsection, h⟩
        · obtain ⟨-, raft', hsection', h⟩ := hraft.1 h
          rw [hsection] at hsection'
          cases hsection'
          exact h
      · next hsection =>
        refine decides_error .validation fun h => ?_
        obtain ⟨-, raft, hsection', -⟩ := hraft.1 h
        rw [hsection] at hsection'
        cases hsection'
    · next htype => exact decides_error .validation fun h => htype (hraft.1 h).1

theorem decides_group (s : OrdererSection) : (s.group loader).Decides (s.Valid loader) := by
  have hpolicies := (Group.decides_ofPolicies s.policies
    (by decide : ordererPolicies ≠ [])).within .ordererPolicies
  refine (hpolicies.bind fun g _ => (decides_checkDuration _ s.batchTimeout).bind fun _ _ =>
    (s.decides_consensusMetadata loader).bind fun metadata _ =>
      Group.decides_withOrganizations (fun o => o.decides_groupWith loader _) _ _).congr ⟨?_, ?_⟩
  · rintro ⟨hpolicies, htimeout, hconsensus, horganizations⟩
    exact ⟨hpolicies, htimeout, hconsensus, horganizations⟩
  · intro h
    exact ⟨h.policies, h.batchTimeout, h.consensus, h.organizations⟩

end OrdererSection

/-! ## Application and consortiums -/

theorem ApplicationSection.decides_group (s : ApplicationSection) :
    (s.group loader).Decides (s.Valid loader) := by
  have hpolicies := (Group.decides_ofPolicies s.policies
    (by decide : standardPolicies ≠ [])).within .applicationPolicies
  refine (hpolicies.bind fun g _ =>
    Group.decides_withOrganizations (fun o => o.decides_groupWith loader _) _ _).congr ⟨?_, ?_⟩
  · rintro ⟨hpolicies, horganizations⟩
    exact ⟨hpolicies, horganizations⟩
  · intro h
    exact ⟨h.policies, h.organizations⟩

theorem ConsortiumSection.decides_group (s : ConsortiumSection) :
    (s.group loader).Decides (∀ o ∈ s.organizations, o.Valid loader) :=
  ((Group.decides_withOrganizations (fun o => o.decides_groupWith loader _) _ _).bind (Q := True)
    fun _ _ => decides_ok _ trivial).congr (and_iff_left trivial)

theorem Group.decides_withConsortiums (g : Group) (es : List (String × ConsortiumSection)) :
    (g.withConsortiums loader es).Decides (∀ e ∈ es, ∀ o ∈ e.2.organizations, o.Valid loader) := by
  induction es generalizing g with
  | nil => exact decides_ok g nofun
  | cons e es ih =>
    obtain ⟨name, s⟩ := e
    refine (((s.decides_group loader).within (.consortium name)).bind fun child _ =>
      ih (g.setGroup name child)).congr ?_
    rw [List.forall_mem_cons]

theorem decides_consortiumsGroupOf (cs : NameMap ConsortiumSection) :
    (consortiumsGroupOf loader cs).Decides
      (∀ name s, cs.find? name = some s → ∀ o ∈ s.organizations, o.Valid loader) := by
  refine (Group.decides_withConsortiums loader _ cs.toList).congr ⟨fun h name s hs => ?_, ?_⟩
  · exact h (name, s) (cs.find?_eq_some_iff.1 hs)
  · rintro h ⟨name, s⟩ hmem
    exact h name s (cs.find?_eq_some_iff.2 hmem)

/-! ## The root -/

theorem Group.decides_withSection {S : Type} {name : String} {build : S → Result Group}
    {P : S → Prop} (hbuild : ∀ s, (build s).Decides (P s)) (g : Group) (s : Option S) :
    (g.withSection name build s).Decides (∀ t, s = some t → P t) := by
  cases s with
  | none => exact decides_ok g nofun
  | some s =>
    refine ((hbuild s).bind (Q := True) fun child _ => decides_ok _ trivial).congr ?_
    rw [and_true]
    exact ⟨fun h t ht => by cases ht; exact h, fun h => h s rfl⟩

theorem Profile.decides_channelGroup (p : Profile) :
    (p.channelGroup loader).Decides (p.Valid loader) := by
  have hpolicies := (Group.decides_ofPolicies p.policies
    (by decide : standardPolicies ≠ [])).within .channelPolicies
  refine (hpolicies.bind fun root _ =>
    (Group.decides_withSection (fun s => s.decides_group loader) _ p.orderer).bind fun _ _ =>
    (Group.decides_withSection (fun s => s.decides_group loader) _ p.application).bind fun _ _ =>
    Group.decides_withSection (decides_consortiumsGroupOf loader) _ p.consortiums).congr ⟨?_, ?_⟩
  · rintro ⟨hpolicies, horderer, happlication, hconsortiums⟩
    exact ⟨hpolicies, horderer, happlication, hconsortiums⟩
  · intro h
    exact ⟨h.policies, h.orderer, h.application, h.consortiums⟩

/-- The tree of a channel can be built from the valid profiles and from no others. What is wrong with
another one is said by an error about the profile, a policy in it or the material it refers to, never
by one of reading or comparing. -/
theorem Profile.channelGroup_ok_iff_valid (p : Profile) :
    ((∃ g, p.channelGroup loader = .ok g) ↔ p.Valid loader) ∧
      ∀ e, p.channelGroup loader = .error e →
        (∃ trail cause, e = .validation trail cause) ∨ (∃ trail cause, e = .parse trail cause) ∨
          ∃ trail task failure, e = .collaborator trail task failure := by
  have hdecides := p.decides_channelGroup loader
  refine ⟨hdecides.ok_iff, fun e he => ?_⟩
  cases hdecides.ofInput e he with
  | validation => exact .inl ⟨_, _, rfl⟩
  | parse => exact .inr (.inl ⟨_, _, rfl⟩)
  | collaborator => exact .inr (.inr ⟨_, _, _, rfl⟩)

end

end ChannelConfig
