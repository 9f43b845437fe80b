import ChannelConfig.Disk.View
import ChannelConfig.NameMap

/-!
# Disks

A disk is a tree of directories with files in them, and a working directory where relative paths
start. `Disk.view` looks at it and `Disk.write` changes one file.
-/

set_option autoImplicit false

namespace ChannelConfig

inductive Node where
  | file (contents : Bytes)
  | directory (entries : SortedFrom Node none)

namespace Node

instance : Inhabited Node := ⟨.directory .nil⟩

/-- The entries of a directory; a file has none. -/
def entries : Node → NameMap Node
  | .file _ => .nil
  | .directory entries => entries

/-- The node at a path of names below this one. -/
def at? (node : Node) : List String → Option Node
  | [] => some node
  | name :: place =>
    match node.entries.find? name with
    | some child => child.at? place
    | none => none

/-- Sets the node at a path of names. Directories that are missing on the way are made. -/
def put (node : Node) (place : List String) (new : Node) : Node :=
  match place with
  | [] => new
  | name :: place =>
    let child := (node.entries.find? name).getD (.directory .nil)
    .directory (node.entries.insert name (child.put place new))

end Node

structure Disk where
  root : Node := .directory .nil
  workingDirectory : List String := []

namespace Disk

/-! ## Following paths -/

/-- The longest name, in bytes. -/
def maxNameLength : Nat := 255

/-- The longest path, in bytes. -/
def maxPathLength : Nat := 4095

/-- The longest file, in bytes. -/
def maxFileLength : Nat := 9223372036854775807

/-- Where steps lead from a place. Each step starts in a directory, also one that stays there. -/
def follow (d : Disk) : (place : List String) → List Path.Component → Except FileError (List String)
  | place, [] => .ok place
  | place, c :: cs =>
    match d.root.at? place with
    | none => .error .notFound
    | some (.file _) => .error .notADirectory
    | some (.directory _) =>
      match c with
      | .root => d.follow [] cs
      | .here => d.follow place cs
      | .up => d.follow place.dropLast cs
      | .name name =>
        if maxNameLength < name.utf8ByteSize then .error .nameTooLong
        else d.follow (place ++ [name]) cs

/-- The place of a path: the names that lead to it from the root. -/
def place (d : Disk) (path : Path) : Except FileError (List String) :=
  if path.isEmpty then .error .notFound
  else if path.text.toList.contains '\x00' then .error .invalidName
  else if maxPathLength < path.text.utf8ByteSize then .error .nameTooLong
  else d.follow d.workingDirectory path.steps

def find (d : Disk) (path : Path) : Except FileError Node := do
  let place ← d.place path
  match d.root.at? place with
  | none => .error .notFound
  | some (.file contents) =>
    if path.endsWithSlash then .error .notADirectory else .ok (.file contents)
  | some node => .ok node

/-! ## Reading and writing -/

def contents (d : Disk) (path : Path) : Except FileError Bytes := do
  match ← d.find path with
  | .file contents => .ok contents
  | .directory _ => .error .isADirectory

def names (d : Disk) (path : Path) : Except FileError (List String) := do
  match ← d.find path with
  | .file _ => .error .notADirectory
  | .directory entries => .ok entries.names

def isFile (d : Disk) (path : Path) : Bool :=
  match d.find path with
  | .ok (.file _) => true
  | _ => false

def view (d : Disk) : FileView where
  contents := d.contents
  names := d.names
  isFile := d.isFile

/-- Writes a file, in place of one that is there. Its directory must exist. -/
def write (d : Disk) (path : Path) (contents : Bytes) : Except FileError Disk := do
  let place ← d.place path
  match d.root.at? place with
  | some (.directory _) => .error .isADirectory
  | _ =>
    if path.endsWithSlash then .error .isADirectory
    else if maxFileLength < contents.length then .error (.other "File too large (os error 27)")
    else .ok { d with root := d.root.put place (.file contents) }

instance : FileSystem Disk := ⟨view, write⟩

/-! ## Setting up -/

/-- Adds a file at a place, with the directories that lead to it. -/
def addFile (d : Disk) (place : List String) (contents : Bytes) : Disk :=
  { d with root := d.root.put place (.file contents) }

/-- Adds a directory at a place, unless there is one, with those that lead to it. -/
def addDirectory (d : Disk) (place : List String) : Disk :=
  match d.root.at? place with
  | some (.directory _) => d
  | _ => { d with root := d.root.put place (.directory .nil) }

end Disk

end ChannelConfig
