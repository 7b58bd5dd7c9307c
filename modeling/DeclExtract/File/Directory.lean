import DeclExtract.File.State
import DeclExtract.Text.Separated

/-!
# Directories

The files that a run finds around it. A name leads to a file part by part, with slashes between the
parts: an empty part and `.` stay where the walk is, `..` goes up, and any other part goes to what
bears it as its name. So a file has many names. But only a directory is walked on from, which is why
nothing is found beyond a file, not even with a mere slash at the end of its name.

One directory is known, with all that lies in it. Of what lies around it only the null device is
known, which reads as an empty file on every system.
-/

namespace DeclExtract

/-- What lies in a directory. -/
inductive DirectoryEntry where
  /-- A file with these bytes. -/
  | file (bytes : ByteArray)
  /-- A directory. -/
  | directory

/-- What reading an entry finds. -/
def DirectoryEntry.state : DirectoryEntry → FileState
  | .file bytes => .content bytes
  | .directory => .unreadable

/-- A directory that a program runs in. -/
structure Directory where
  /-- Each entry with the names that lead down to it, its own name last. -/
  entries : List (List String × DirectoryEntry)

/-- Where a walk along the parts of a name has come to. -/
inductive Place where
  /-- The directory that these names lead down to from the known one. -/
  | inside (names : List String)
  /-- A directory around the known one. -/
  | above
  /-- The root of all directories. -/
  | root
  /-- The directory of the devices. -/
  | devices
  /-- A file. -/
  | file (bytes : ByteArray)
  /-- Beyond a file. -/
  | beyond
  /-- A place that is not there. -/
  | nowhere

namespace Place

/-- The directory around a directory. -/
def parent : Place → Place
  | .inside [] | .above => .above
  | .inside names => .inside names.dropLast
  | .devices | .root => .root
  | p => p

/-- What reading finds at a place; a directory cannot be read. -/
def state : Place → FileState
  | .file bytes => .content bytes
  | .nowhere => .absent
  | _ => .unreadable

end Place

namespace Directory

/-- The directory with the given entries; a name with slashes leads down through directories. -/
def ofEntries (described : List (String × DirectoryEntry)) : Directory :=
  ⟨described.map fun (name, e) ↦ (Text.parts '/' name, e)⟩

/-- What names lead down to. A name that leads on to an entry is that of a directory. -/
def entry? (d : Directory) (names : List String) : Option DirectoryEntry :=
  match d.entries.lookup names with
  | some e => some e
  | none => if d.entries.any fun e ↦ names.isPrefixOf e.1 then some .directory else none

/-- What a place has under a name. -/
def child (d : Directory) (p : Place) (name : String) : Place :=
  match p with
  | .inside names =>
    match d.entry? (names ++ [name]) with
    | some (.file bytes) => .file bytes
    | some .directory => .inside (names ++ [name])
    | none => .nowhere
  | .root => if name = "dev" then .devices else .nowhere
  | .devices => if name = "null" then .file ByteArray.empty else .nowhere
  | _ => .nowhere

/-- A walk from a place along one part of a name. -/
def step (d : Directory) (p : Place) (part : String) : Place :=
  match p with
  | .file _ | .beyond => .beyond
  | .nowhere => .nowhere
  | p =>
    if part = "" ∨ part = "." then p
    else if part = ".." then p.parent
    else d.child p part

/-- Where a name leads to: from the root if it starts with a slash, from the known directory
otherwise. The empty name leads nowhere. -/
def locate (d : Directory) (name : String) : Place :=
  if name = "" then .nowhere
  else
    (Text.parts '/' name).foldl d.step
      (if name.toList.head? = some '/' then .root else .inside [])

/-- What reading the file of a name finds. -/
def read (d : Directory) (name : String) : FileState :=
  (d.locate name).state

end Directory

end DeclExtract
