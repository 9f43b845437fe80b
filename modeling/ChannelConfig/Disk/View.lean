import ChannelConfig.Error
import ChannelConfig.Path

/-!
# Looking at files

What a program can see of files and directories. The names in a directory come in any order. A
`FileSystem` has a view at each time, and files can be written to it.
-/

set_option autoImplicit false

namespace ChannelConfig

structure FileView where
  /-- The contents of a file. -/
  contents : Path → Except FileError Bytes
  /-- The names in a directory. -/
  names : Path → Except FileError (List String)
  /-- Whether there is a regular file. -/
  isFile : Path → Bool

namespace FileView

/-- The contents of a file of text. -/
def text (v : FileView) (path : Path) : Except FileError String :=
  match v.contents path with
  | .error e => .error e
  | .ok bs =>
    match Bytes.text? bs with
    | some s => .ok s
    | none => .error .notText

end FileView

/-- A system of files, by its states. -/
class FileSystem (F : Type) where
  view : F → FileView
  /-- Writes a file as a whole, in place of one that is there, or fails. -/
  write : F → Path → Bytes → Except FileError F

end ChannelConfig
