import ChannelConfig.Profile.Policies
import ChannelConfig.Value.Standard

/-!
# Groups of organizations

An organization has the same group in every section, except that the application adds its anchor
peers and the orderer its endpoints. The group of a foreign organization is empty.
-/

set_option autoImplicit false

namespace ChannelConfig

namespace Group

/-- Adds a well-known value, under the admins. -/
def withValue (g : Group) (v : StandardValue) : Group := v.addTo g adminsPolicy

/-- Adds a well-known value if the condition holds. -/
def withValueIf (g : Group) (p : Prop) [Decidable p] (v : StandardValue) : Group :=
  if p then g.withValue v else g

end Group

namespace Organization

/-- The group of an organization whose material is at hand: its policies and its MSP. -/
def memberGroup (loader : MaterialLoader) (o : Organization) : Result Group :=
  if o.mspType ≠ bccspType then .invalid (.unsupportedMspType o.mspType o.name)
  else
    match loader.loadMsp o.mspDir o.mspId o.mspType with
    | .error fault => .error (.collaborator [] (.loadMsp o.name) (.load fault))
    | .ok material => do
      let msp ← verifyingMsp o.mspId material
      let g ← Result.within (.organizationPolicies o.name) (Group.ofPolicies o.policies standardPolicies)
      return g.withValue (.msp msp)

/-- The group of the organization, with what a section adds to it. -/
def groupWith (extras : Group → Group) (loader : MaterialLoader) (o : Organization) :
    Result Group :=
  if o.skipAsForeign then .ok (.governedBy adminsPolicy) else (o.memberGroup loader).map extras

def ordererGroup (loader : MaterialLoader) (o : Organization) : Result Group :=
  o.groupWith (fun g =>
    g.withValueIf (o.ordererEndpoints ≠ []) (.endpoints { addresses := o.ordererEndpoints })) loader

def applicationGroup (loader : MaterialLoader) (o : Organization) : Result Group :=
  o.groupWith (fun g =>
    g.withValueIf (o.anchorPeers ≠ []) (.anchorPeers { anchorPeers := o.anchorPeers })) loader

def consortiumGroup (loader : MaterialLoader) (o : Organization) : Result Group :=
  o.groupWith id loader

end Organization

namespace Group

/-- Adds the group of each organization under its name; of several of one name the last counts. -/
def withOrganizations (place : String → Place) (build : Organization → Result Group) :
    Group → List Organization → Result Group
  | g, [] => .ok g
  | g, o :: os => do
    let child ← (build o).within (place o.name)
    withOrganizations place build (g.setGroup o.name child) os

end Group

end ChannelConfig
