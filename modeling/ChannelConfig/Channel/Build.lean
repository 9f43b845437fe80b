import ChannelConfig.Channel.Orderer

/-!
# The tree of a channel

`Profile.channelGroup` builds the tree that a profile describes: below the root a group for the
orderer, the application and the consortiums, below those a group for each organization, below the
consortiums one level further.
-/

set_option autoImplicit false

namespace ChannelConfig

namespace ApplicationSection

def group (loader : MaterialLoader) (s : ApplicationSection) : Result Group := do
  let g ← Result.within .applicationPolicies (Group.ofPolicies s.policies standardPolicies)
  let g := (g.withValueIf (!s.acls.isEmpty)
      (.acls { acls := s.acls.map fun _ policyRef => { policyRef } })).withValueIf
    (!s.capabilities.isEmpty) (enabledCapabilities s.capabilities)
  g.withOrganizations .applicationOrganization (·.applicationGroup loader) s.organizations

end ApplicationSection

/-! ## Consortiums -/

/-- Any admin of a member may create a channel. -/
def channelCreationPolicy : AccessPolicy := .implicitMeta .any adminsPolicy

def ConsortiumSection.group (loader : MaterialLoader) (s : ConsortiumSection) : Result Group := do
  let g ← (Group.governedBy ordererAdmins).withOrganizations .consortiumOrganization
    (·.consortiumGroup loader) s.organizations
  return StandardValue.addTo (.channelCreationPolicy channelCreationPolicy.toMessage) g ordererAdmins

namespace Group

/-- Adds the group of each consortium under its name. -/
def withConsortiums (loader : MaterialLoader) :
    Group → List (String × ConsortiumSection) → Result Group
  | g, [] => .ok g
  | g, (name, s) :: rest => do
    let child ← (s.group loader).within (.consortium name)
    withConsortiums loader (g.setGroup name child) rest

end Group

/-- The group of all consortiums. The ordering service's admins govern it; its own policy of that
name, which policies further up ask for, lets everything pass. -/
def consortiumsGroupOf (loader : MaterialLoader) (consortiums : NameMap ConsortiumSection) :
    Result Group :=
  ((Group.governedBy ordererAdmins).setPolicy adminsPolicy .acceptAll ordererAdmins).withConsortiums
    loader consortiums.toList

/-! ## The root -/

def hashingAlgorithm : HashingAlgorithm := { name := "SHA256" }

/-- So wide that the hash of a block's data is taken over all of it at once. -/
def blockDataHashing : BlockDataHashingStructure := { width := 4294967295 }

namespace Group

/-- Adds the group of a section, if the profile has the section. -/
def withSection {S : Type} (name : String) (build : S → Result Group) (g : Group) :
    Option S → Result Group
  | none => .ok g
  | some s => do return g.setGroup name (← build s)

end Group

namespace Profile

/-- The name of the consortium, unless there is none or it is empty. -/
def consortiumName? (p : Profile) : Option String := p.consortium.filter fun name => !name.isEmpty

def ordererAddresses (p : Profile) : List String := (p.orderer.map (·.addresses)).getD []

def withRootValues (p : Profile) (g : Group) : Group :=
  let g := (g.withValue (.hashingAlgorithm hashingAlgorithm)).withValue
    (.blockDataHashingStructure blockDataHashing)
  let g :=
    if p.ordererAddresses = [] then g
    else StandardValue.addTo (.ordererAddresses { addresses := p.ordererAddresses }) g ordererAdmins
  let g :=
    match p.consortiumName? with
    | some name => g.withValue (.consortium { name })
    | none => g
  g.withValueIf (!p.capabilities.isEmpty) (enabledCapabilities p.capabilities)

/-- The tree that the profile describes. -/
def channelGroup (loader : MaterialLoader) (p : Profile) : Result Group := do
  let root ← Result.within .channelPolicies (Group.ofPolicies p.policies standardPolicies)
  let g := p.withRootValues root
  let g ← g.withSection ordererGroup (·.group loader) p.orderer
  let g ← g.withSection applicationGroup (·.group loader) p.application
  g.withSection consortiumsGroup (consortiumsGroupOf loader) p.consortiums

end Profile

end ChannelConfig
