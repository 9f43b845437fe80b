import ChannelConfig.Profile.Basic

/-!
# Resolving and rebasing profiles

`ProfileDocument.profile` takes a profile out of a document, each reference in it replaced by the
first shared organization of that name. `ProfileDocument.rebase` makes the relative paths of a
document relative to a base.
-/

set_option autoImplicit false

namespace ChannelConfig

/-! ## Resolving -/

/-- The organization itself, or what it refers to. -/
def Organization.resolve (shared : List Organization) (profile : String) (o : Organization) :
    Result Organization :=
  if o.reference then
    match shared.find? (·.name = o.name) with
    | some definition => .ok definition
    | none => .invalid (.unknownOrganization profile o.name)
  else .ok o

/-- Runs a check on every entry, in the order of names, and keeps what it gives. -/
def SortedFrom.mapM {V W : Type} (f : V → Result W) :
    {lo : Option String} → SortedFrom V lo → Result (SortedFrom W lo)
  | _, .nil => .ok .nil
  | _, .cons name above value rest => do
    let w ← f value
    let ws ← rest.mapM f
    return .cons name above w ws

namespace Profile

/-- Replaces the organizations of every section: of the orderer, of the application, and of the
consortiums in the order of their names. -/
def mapOrganizationsM (f : Organization → Result Organization) (p : Profile) : Result Profile := do
  let orderer ← p.orderer.mapM fun s : OrdererSection => do
    return { s with organizations := ← s.organizations.mapM f }
  let application ← p.application.mapM fun s : ApplicationSection => do
    return { s with organizations := ← s.organizations.mapM f }
  let consortiums ← p.consortiums.mapM fun m : NameMap ConsortiumSection =>
    m.mapM fun s => do return { s with organizations := ← s.organizations.mapM f }
  return { p with orderer, application, consortiums }

end Profile

/-- The profile of a name, without references that the document can resolve. -/
def ProfileDocument.profile (d : ProfileDocument) (name : String) : Result Profile :=
  match d.profiles.find? name with
  | none => .invalid (.profileNotFound name)
  | some p => p.mapOrganizationsM (Organization.resolve d.organizations name)

/-! ## Rebasing -/

/-- The path as seen from a base; no path stays no path. -/
def Path.rebase (base p : Path) : Path := if p.isEmpty then p else base.join p

def Organization.rebase (base : Path) (o : Organization) : Organization :=
  { o with mspDir := base.rebase o.mspDir }

def ConsenterDef.rebase (base : Path) (c : ConsenterDef) : ConsenterDef :=
  { c with
    clientTlsCert := base.rebase c.clientTlsCert
    serverTlsCert := base.rebase c.serverTlsCert }

def RaftSection.rebase (base : Path) (s : RaftSection) : RaftSection :=
  { s with consenters := s.consenters.map (·.rebase base) }

def OrdererSection.rebase (base : Path) (s : OrdererSection) : OrdererSection :=
  { s with
    organizations := s.organizations.map (·.rebase base)
    etcdRaft := s.etcdRaft.map (·.rebase base) }

def ApplicationSection.rebase (base : Path) (s : ApplicationSection) : ApplicationSection :=
  { s with organizations := s.organizations.map (·.rebase base) }

def ConsortiumSection.rebase (base : Path) (s : ConsortiumSection) : ConsortiumSection :=
  { s with organizations := s.organizations.map (·.rebase base) }

def Profile.rebase (base : Path) (p : Profile) : Profile :=
  { p with
    orderer := p.orderer.map (·.rebase base)
    application := p.application.map (·.rebase base)
    consortiums := p.consortiums.map fun m => m.map fun _ s => s.rebase base }

def ProfileDocument.rebase (base : Path) (d : ProfileDocument) : ProfileDocument where
  profiles := d.profiles.map fun _ p => p.rebase base
  organizations := d.organizations.map (·.rebase base)

end ChannelConfig
