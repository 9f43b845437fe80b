import ChannelConfig.Channel.Build
import ChannelConfig.Ledger.Transaction
import ChannelConfig.Tree.Diff

/-!
# Creating channels

A channel is created by an update of a template, the tree that the channel would have without its
application's own settings. The update names the consortium in both of its sets, changed or not.
-/

set_option autoImplicit false

namespace ChannelConfig

/-- The same group with an entry for the consortium. -/
def Group.withConsortium (content : Bytes) (g : Group) : Group :=
  { g with values := g.values.insert (StandardValue.consortium {}).key { content } }

namespace Profile

/-- The profile's tree, the application group without values and policies. -/
def creationTemplate (loader : MaterialLoader) (p : Profile) : Result Group := do
  let g ← Result.within .template (p.channelGroup loader)
  match g.groups.find? applicationGroup with
  | none => .invalid .noApplicationInTemplate
  | some application =>
    return g.setGroup applicationGroup { application with values := .nil, policies := .nil }

/-- The update that turns a template into the channel of the profile. -/
def creationUpdate (loader : MaterialLoader) (p : Profile) (channelId : String) (template : Group) :
    Result ConfigUpdate :=
  if p.application.isNone then .invalid .noApplication
  else
    match p.consortiumName? with
    | none => .invalid .noConsortium
    | some name => do
      let desired ← Result.within .desiredGroup (p.channelGroup loader)
      let update ← Result.within .comparison (updateBetween template desired)
      let content := StandardValue.encode (.consortium { name })
      return { update with
        channelId
        readSet := update.readSet.map (.withConsortium [])
        writeSet := update.writeSet.map (.withConsortium content) }

/-- The transaction that creates the channel of the profile. A signer signs the update, with a nonce
of its own, and then the transaction. -/
def creationTransaction (loader : MaterialLoader) (p : Profile) (channelId : String)
    (signer : Option Signer) (updateNonce : Nonce) (stamp : Stamp) : Result Envelope := do
  let template ← p.creationTemplate loader
  let update ← p.creationUpdate loader channelId template
  let unsigned : ConfigUpdateEnvelope := { configUpdate := Wire.encode update }
  let envelope ←
    match signer with
    | some s => unsigned.sign s updateNonce
    | none => .ok unsigned
  signedEnvelope { type := .configUpdate, channelId } signer stamp (Wire.encode envelope)

end Profile

end ChannelConfig
