import ChannelConfig.Disk.Tree
import ChannelConfig.Proofs.Result

/-! What may be relied on when a file is written: it reads back, and no other file is touched
(`LawfulFileSystem`). Disks keep to it: a write sets one place of the tree and leaves what is at
every other place (`Node.seen?_put`), so paths lead where they led before
(`Disk.leadsTo_addFile_iff`). -/

set_option autoImplicit false

namespace ChannelConfig

/-! ## Laws -/

namespace FileSystem

variable {F : Type} [FileSystem F]

/-- Whatever is written at one path is read at the other: both lead to one file. -/
def SameFile (files : F) (p q : Path) : Prop :=
  ∀ bs files', write files p bs = .ok files' → (view files').contents q = .ok bs

/-- No file is another one afterwards, except the one at a path. -/
def ChangesOnly (p : Path) (files files' : F) : Prop :=
  ∀ q, SameFile files p q ∨
    (view files').isFile q = (view files).isFile q ∧
      ∀ bs, (view files').contents q = .ok bs ↔ (view files).contents q = .ok bs

end FileSystem

/-- A file system where files are regular ones, and no longer than a 64-bit offset can tell. -/
class LawfulFileSystem (F : Type) [FileSystem F] : Prop where
  sameFile_self (files : F) (p : Path) : FileSystem.SameFile files p p
  changesOnly_of_write {files files' : F} {p : Path} {bs : Bytes}
    (h : FileSystem.write files p bs = .ok files') : FileSystem.ChangesOnly p files files'
  length_lt_of_write {files files' : F} {p : Path} {bs : Bytes}
    (h : FileSystem.write files p bs = .ok files') : bs.length < UInt64.size

/-! ## Places in a tree -/

namespace Node

/-- The contents of a file; a directory has none. -/
def contents? : Node → Option Bytes
  | file contents => some contents
  | directory _ => none

/-- What is at a place, entries aside. -/
def seen? (node : Node) (place : List String) : Option (Option Bytes) :=
  (node.at? place).map contents?

variable {root : Node} {place : List String}

theorem seen?_eq_directory_iff :
    root.seen? place = some none ↔ ∃ entries, root.at? place = some (.directory entries) := by
  rw [seen?, Option.map_eq_some_iff]
  constructor
  · rintro ⟨node, hnode, hcontents⟩
    cases node with
    | file contents => cases hcontents
    | directory entries => exact ⟨entries, hnode⟩
  · rintro ⟨entries, h⟩
    exact ⟨_, h, rfl⟩

theorem seen?_eq_file_iff {bs : Bytes} :
    root.seen? place = some (some bs) ↔ root.at? place = some (.file bs) := by
  rw [seen?, Option.map_eq_some_iff]
  constructor
  · rintro ⟨node, hnode, hcontents⟩
    cases node with
    | file contents =>
      cases hcontents
      exact hnode
    | directory entries => cases hcontents
  · exact fun h => ⟨_, h, rfl⟩

/-- Below a file there is nothing. -/
theorem seen?_cons (name : String) :
    root.seen? (name :: place) = (root.entries.find? name).bind (·.seen? place) := by
  rw [seen?, at?]
  cases root.entries.find? name <;> rfl

theorem seen?_put_cons (name name' : String) (place' : List String) (new : Node) :
    (root.put (name :: place) new).seen? (name' :: place') =
      if name = name' then
        (((root.entries.find? name).getD (.directory .nil)).put place new).seen? place'
      else root.seen? (name' :: place') := by
  rw [seen?_cons, put]
  show ((SortedFrom.insert _ name _).find? name').bind _ = _
  rw [SortedFrom.find?_insert]
  split
  · rfl
  · rw [seen?_cons]

theorem seen?_put_self {bs : Bytes} : (root.put place (.file bs)).seen? place = some (some bs) := by
  induction place generalizing root with
  | nil => rfl
  | cons name place ih => rw [seen?_put_cons, if_pos rfl, ih]

/-- What has something below it is a directory. -/
theorem seen?_nil (h : root.seen? place = some none) : root.seen? [] = some none := by
  cases root with
  | directory entries => rfl
  | file contents => cases place <;> cases h

theorem exists_child {name : String} {found : Option Bytes}
    (h : root.seen? (name :: place) = some found) :
    ∃ child, root.entries.find? name = some child ∧ child.seen? place = some found := by
  rwa [seen?_cons, Option.bind_eq_some_iff] at h

theorem seen?_dropLast (h : root.seen? place = some none) :
    root.seen? place.dropLast = some none := by
  induction place generalizing root with
  | nil => exact h
  | cons name place ih =>
    cases place with
    | nil => exact seen?_nil h
    | cons next place =>
      obtain ⟨child, hchild, h⟩ := exists_child h
      rw [List.dropLast_cons_cons, seen?_cons, hchild]
      exact ih h

/-- A file set in a directory, where there is no directory, is seen at its place only. -/
theorem seen?_put {bs : Bytes} {other : List String}
    (hparent : root.seen? place.dropLast = some none) (hfree : root.seen? place ≠ some none)
    (hother : other ≠ place) : (root.put place (.file bs)).seen? other = root.seen? other := by
  induction place generalizing root other with
  | nil => exact absurd hparent hfree
  | cons name place ih =>
    cases other with
    | nil => exact (seen?_nil hparent).symm
    | cons name' other =>
      rw [seen?_put_cons]
      split
      · next hname =>
        subst hname
        have hother : other ≠ place := fun h => hother (congrArg _ h)
        cases place with
        | nil =>
          -- neither the new file nor what it replaces has entries
          obtain ⟨next, rest, rfl⟩ := List.exists_cons_of_ne_nil hother
          rw [seen?_cons] at hfree ⊢
          rw [seen?_cons]
          cases hchild : root.entries.find? name with
          | none => rfl
          | some child =>
            cases child with
            | file contents => rfl
            | directory entries =>
              rw [hchild] at hfree
              exact absurd rfl hfree
        | cons next place =>
          rw [List.dropLast_cons_cons] at hparent
          obtain ⟨child, hchild, hparent⟩ := exists_child hparent
          rw [seen?_cons, hchild] at hfree ⊢
          exact ih hparent hfree hother
      · rfl

end Node

/-! ## Paths -/

namespace Path

theorem component?_cons (c : Char) (part : List Char) :
    ∃ step, component? (c :: part) = some step := by
  rw [component?, if_neg (by simp)]
  split
  · exact ⟨_, rfl⟩
  · split <;> exact ⟨_, rfl⟩

/-- Only a slash ends a part, so a text that starts with another character has a first part. -/
theorem splitSlashes_cons {c : Char} (hc : c ≠ '/') (cs : List Char) :
    ∃ part parts, splitSlashes (c :: cs) = (c :: part) :: parts := by
  rw [splitSlashes, if_neg hc]
  split
  · exact ⟨_, _, rfl⟩
  · exact ⟨_, _, rfl⟩

theorem steps_ne_nil {p : Path} (h : p.isEmpty = false) : p.steps ≠ [] := by
  rw [steps]
  split
  · exact List.cons_ne_nil _ _
  · next hrelative =>
    rw [isAbsolute, decide_eq_true_eq] at hrelative
    have hne : p.text.toList ≠ [] := by
      intro hnil
      rw [isEmpty, String.isEmpty_eq_false_iff] at h
      exact h (String.toList_eq_nil_iff.1 hnil)
    obtain ⟨c, cs, hcs⟩ := List.exists_cons_of_ne_nil hne
    rw [hcs, List.head?_cons, Option.some_inj] at hrelative
    obtain ⟨part, parts, hparts⟩ := splitSlashes_cons hrelative cs
    obtain ⟨step, hstep⟩ := component?_cons c part
    rw [hcs, hparts, List.filterMap_cons_some hstep]
    exact List.cons_ne_nil _ _

/-- Where a step leads from a place, if the name in it is not too long. -/
def Component.next? (c : Component) (start : List String) : Option (List String) :=
  match c with
  | .root => some []
  | .here => some start
  | .up => some start.dropLast
  | .name text => if Disk.maxNameLength < text.utf8ByteSize then none else some (start ++ [text])

end Path

/-- From a directory a step leads to a directory, or to a name in one. -/
theorem Node.seen?_dropLast_next {root : Node} {c : Path.Component} {start next : List String}
    (hstart : root.seen? start = some none) (h : c.next? start = some next) :
    root.seen? next.dropLast = some none := by
  cases c with
  | root =>
    cases h
    exact seen?_nil hstart
  | here =>
    cases h
    exact seen?_dropLast hstart
  | up =>
    cases h
    exact seen?_dropLast (seen?_dropLast hstart)
  | name name =>
    rw [Path.Component.next?] at h
    split at h
    · cases h
    · cases h
      rwa [List.dropLast_concat]

namespace Disk

variable {d d' : Disk} {path : Path} {bs : Bytes} {start place : List String}

theorem follow_cons_eq_ok_iff {c : Path.Component} {cs : List Path.Component} :
    d.follow start (c :: cs) = .ok place ↔ d.root.seen? start = some none ∧
      ∃ next, c.next? start = some next ∧ d.follow next cs = .ok place := by
  rw [Node.seen?_eq_directory_iff]
  cases c with
  | name text =>
    rw [follow, Path.Component.next?]
    by_cases hlong : maxNameLength < text.utf8ByteSize
    · rw [if_pos hlong, if_pos hlong]
      split <;> simp_all
    · rw [if_neg hlong, if_neg hlong]
      split <;> simp_all
  | _ =>
    rw [follow]
    split <;> simp_all [Path.Component.next?]

/-- Paths lead to the same places as long as the directories stay where they are. -/
theorem follow_of_directories
    (hkept : ∀ p, d.root.seen? p = some none → d'.root.seen? p = some none)
    {cs : List Path.Component} (h : d.follow start cs = .ok place) :
    d'.follow start cs = .ok place := by
  induction cs generalizing start with
  | nil => exact h
  | cons c cs ih =>
    obtain ⟨hstart, next, hnext, h⟩ := follow_cons_eq_ok_iff.1 h
    exact follow_cons_eq_ok_iff.2 ⟨hkept start hstart, next, hnext, ih h⟩

/-- Steps that start in a directory end in one, or at a name in one. -/
theorem parent_of_follow {cs : List Path.Component}
    (hstart : d.root.seen? start.dropLast = some none) (h : d.follow start cs = .ok place) :
    d.root.seen? place.dropLast = some none := by
  induction cs generalizing start with
  | nil =>
    cases h
    exact hstart
  | cons c cs ih =>
    obtain ⟨hdirectory, next, hnext, h⟩ := follow_cons_eq_ok_iff.1 h
    exact ih (Node.seen?_dropLast_next hdirectory hnext) h

/-- The path is one that can be followed at all. -/
theorem place_eq_ok_iff : d.place path = .ok place ↔
    (path.isEmpty = false ∧ '\x00' ∉ path.text.toList ∧ path.text.utf8ByteSize ≤ maxPathLength) ∧
      d.follow d.workingDirectory path.steps = .ok place := by
  rw [Disk.place]
  split
  · next hempty => simp [hempty]
  · next hempty =>
    split
    · next hnul => simp [List.contains_iff_mem.1 hnul]
    · next hnul =>
      split
      · next hlong => simp [Nat.not_le_of_lt hlong]
      · next hshort => simp_all

theorem place_of_directories (hstart : d'.workingDirectory = d.workingDirectory)
    (hkept : ∀ p, d.root.seen? p = some none → d'.root.seen? p = some none)
    (h : d.place path = .ok place) : d'.place path = .ok place := by
  obtain ⟨hpath, h⟩ := place_eq_ok_iff.1 h
  rw [← hstart] at h
  exact place_eq_ok_iff.2 ⟨hpath, follow_of_directories hkept h⟩

theorem parent_of_place (h : d.place path = .ok place) :
    d.root.seen? place.dropLast = some none := by
  obtain ⟨⟨hne, -⟩, h⟩ := place_eq_ok_iff.1 h
  obtain ⟨c, cs, hcs⟩ := List.exists_cons_of_ne_nil (Path.steps_ne_nil hne)
  rw [hcs] at h
  exact parent_of_follow (Node.seen?_dropLast (follow_cons_eq_ok_iff.1 h).1) h

/-! ## Reading and writing -/

/-- A path of a file at a place; one of a directory may have a slash at its end. -/
structure LeadsTo (d : Disk) (path : Path) (place : List String) : Prop where
  noSlash : path.endsWithSlash = false
  place : d.place path = .ok place

theorem find_eq_file_iff : d.find path = .ok (.file bs) ↔
    ∃ place, d.LeadsTo path place ∧ d.root.seen? place = some (some bs) := by
  constructor
  · intro h
    obtain ⟨place, hplace, h⟩ := exists_of_bind_eq_ok h
    split at h
    · cases h
    · next contents hnode =>
      split at h
      · cases h
      · next hslash =>
        cases h
        exact ⟨place, ⟨Bool.eq_false_iff.2 hslash, hplace⟩, Node.seen?_eq_file_iff.2 hnode⟩
    · next hother hnode =>
      cases h
      exact absurd rfl (hother bs)
  · rintro ⟨place, ⟨hslash, hplace⟩, hseen⟩
    simp [find, hplace, bind, Except.bind, Node.seen?_eq_file_iff.1 hseen, hslash]

theorem contents_eq_ok_iff : d.contents path = .ok bs ↔
    ∃ place, d.LeadsTo path place ∧ d.root.seen? place = some (some bs) := by
  rw [← find_eq_file_iff, contents]
  cases d.find path with
  | error e => exact ⟨nofun, nofun⟩
  | ok node =>
    cases node with
    | file contents => simp [bind, Except.bind]
    | directory entries => exact ⟨nofun, nofun⟩

theorem isFile_iff : d.isFile path = true ↔ ∃ bs, d.contents path = .ok bs := by
  simp only [contents_eq_ok_iff, ← find_eq_file_iff]
  rw [isFile]
  split
  · next contents hfile => simp [hfile]
  · next hother => simpa using hother

/-- What a write comes to: a file in a directory, at a place where there is no directory. -/
theorem exists_of_write (h : d.write path bs = .ok d') :
    bs.length ≤ maxFileLength ∧ ∃ place, d.LeadsTo path place ∧
      d.root.seen? place ≠ some none ∧ d' = d.addFile place bs := by
  obtain ⟨place, hplace, h⟩ := exists_of_bind_eq_ok h
  split at h
  · cases h
  · next hfree =>
    split at h
    · cases h
    · next hslash =>
      split at h
      · cases h
      · next hlength =>
        cases h
        refine ⟨Nat.le_of_not_lt hlength, place, ⟨Bool.eq_false_iff.2 hslash, hplace⟩, ?_, rfl⟩
        intro hdirectory
        obtain ⟨entries, hnode⟩ := Node.seen?_eq_directory_iff.1 hdirectory
        exact hfree entries hnode

section

variable {other : Path} (hpath : d.LeadsTo path place) (hfree : d.root.seen? place ≠ some none)

include hpath hfree

theorem seen?_addFile {p : List String} (hp : p ≠ place) :
    (d.addFile place bs).root.seen? p = d.root.seen? p :=
  Node.seen?_put (parent_of_place hpath.place) hfree hp

theorem leadsTo_addFile_iff {p : List String} :
    (d.addFile place bs).LeadsTo other p ↔ d.LeadsTo other p := by
  have hkept : ∀ p, (d.addFile place bs).root.seen? p = some none ↔ d.root.seen? p = some none := by
    intro p
    by_cases hp : p = place
    · subst hp
      have hnew : (d.addFile p bs).root.seen? p = some (some bs) := Node.seen?_put_self
      rw [hnew]
      exact ⟨nofun, fun h => absurd h hfree⟩
    · rw [seen?_addFile hpath hfree hp]
  refine ⟨fun h => ⟨h.noSlash, ?_⟩, fun h => ⟨h.noSlash, ?_⟩⟩
  · exact place_of_directories (d := d.addFile place bs) rfl (fun p => (hkept p).1) h.place
  · exact place_of_directories (d := d) rfl (fun p => (hkept p).2) h.place

theorem contents_addFile_self (hother : d.LeadsTo other place) :
    (d.addFile place bs).contents other = .ok bs :=
  contents_eq_ok_iff.2 ⟨place, (leadsTo_addFile_iff hpath hfree).2 hother, Node.seen?_put_self⟩

theorem contents_addFile_iff {bs' : Bytes} (hother : ¬ d.LeadsTo other place) :
    (d.addFile place bs).contents other = .ok bs' ↔ d.contents other = .ok bs' := by
  simp only [contents_eq_ok_iff, leadsTo_addFile_iff hpath hfree]
  refine exists_congr fun p => and_congr_right fun hp => ?_
  have hne : p ≠ place := by
    rintro rfl
    exact hother hp
  rw [seen?_addFile hpath hfree hne]

end

theorem sameFile_of_leadsTo {other : Path} (hpath : d.LeadsTo path place)
    (hother : d.LeadsTo other place) : FileSystem.SameFile d path other := by
  intro bs d' h
  obtain ⟨-, place', hpath', hfree, rfl⟩ := exists_of_write h
  have hplace := hpath'.place.symm.trans hpath.place
  cases hplace
  exact contents_addFile_self hpath hfree hother

instance : LawfulFileSystem Disk where
  sameFile_self d path bs d' h := by
    obtain ⟨-, place, hpath, -, -⟩ := exists_of_write h
    exact sameFile_of_leadsTo hpath hpath bs d' h
  changesOnly_of_write {d d' path bs} h other := by
    obtain ⟨-, place, hpath, hfree, rfl⟩ := exists_of_write h
    by_cases hother : d.LeadsTo other place
    · exact .inl (sameFile_of_leadsTo hpath hother)
    · have hsame : ∀ bs', (d.addFile place bs).contents other = .ok bs' ↔
          d.contents other = .ok bs' := fun bs' => contents_addFile_iff hpath hfree hother
      refine .inr ⟨Bool.eq_iff_iff.2 ?_, hsame⟩
      show (d.addFile place bs).isFile other = true ↔ d.isFile other = true
      simp only [isFile_iff, hsame]
  length_lt_of_write h := by
    obtain ⟨hlength, -⟩ := exists_of_write h
    exact Nat.lt_of_le_of_lt hlength (by decide)

end Disk

end ChannelConfig
