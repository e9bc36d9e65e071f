/-!
# Directories

A directory holds files, each at a place given by the names on the way to it.
A path leads from name to name through directories. Of what is outside the
directory, nothing is known to exist but the directories above it and the root.
Reading changes nothing, and writing changes the file at the path only, if it
can be written.
-/

namespace Disassembler.CommandLine

/-- Why a file could not be read or written. -/
inductive FileFault where
  /-- There is nothing at the path. -/
  | missing
  /-- The path goes on behind a file. -/
  | notDirectory
  /-- There is a directory at the path. -/
  | isDirectory
  /-- The path, or a name on it, is too long. -/
  | nameTooLong
  /-- Something else failed, as the text says. -/
  | other (text : String)
  deriving DecidableEq

/-- The text that reports a fault. -/
def FileFault.message : FileFault → String
  | .missing => "No such file or directory (os error 2)"
  | .notDirectory => "Not a directory (os error 20)"
  | .isDirectory => "Is a directory (os error 21)"
  | .nameTooLong => "File name too long (os error 36)"
  | .other text => text

/-- The bytes of a file. -/
abbrev Bytes := List UInt8

/-- Where the names of a place begin. -/
inductive Base where
  /-- So many directories above the directory. -/
  | above (levels : Nat)
  /-- At the root. -/
  | root
  deriving DecidableEq

/-- A place that a path may lead to. -/
structure Place where
  /-- Where its names begin. -/
  base : Base := .above 0
  /-- The names on the way to it. -/
  names : List String := []
  deriving DecidableEq

/-- What there is at a place. -/
inductive Content where
  /-- A file that holds bytes. -/
  | file (bytes : Bytes)
  /-- A directory. -/
  | directory
  /-- Neither. -/
  | nothing

/-- The files of a directory, with the places where they are. -/
structure Directory where
  /-- The files, of which the first one at a place counts. -/
  files : List (Place × Bytes) := []

/-- The names on a path. One is empty wherever a slash starts the path, ends it or is behind another
slash. -/
def pathNames (path : String) : List String := (path.toList.splitOn '/').map String.ofList

namespace Place

/-- The place that a name leads to from a directory. -/
def enter (place : Place) (name : String) : Place :=
  if name = "" ∨ name = "." then place
  else if name = ".." then
    match place.base, place.names with
    | .above levels, [] => { base := .above (levels + 1) }
    | base, names => { base, names := names.dropLast }
  else { place with names := place.names ++ [name] }

/-- The place where a path begins. -/
def start (path : String) : Place := if path.startsWith "/" then { base := .root } else {}

/-- The place of a file that a path names, whatever there is on the way to it. -/
def ofPath (path : String) : Place := (pathNames path).foldl enter (start path)

end Place

namespace Directory

/-- The directory that holds files at paths. -/
def ofFiles (files : List (String × Bytes)) : Directory where
  files := files.map fun (path, bytes) => (Place.ofPath path, bytes)

variable (directory : Directory)

/-- What there is at a place. -/
def content (place : Place) : Content :=
  match directory.files.lookup place with
  | some bytes => .file bytes
  | none =>
    if place.names = [] ∨ directory.files.any fun file =>
      file.1.base = place.base ∧ place.names.isPrefixOf file.1.names then .directory
    else .nothing

/-- The number of bytes that a name may have. -/
def nameLimit : Nat := 255

/-- The number of bytes that a path may have. -/
def pathLimit : Nat := 4095

/-- The place behind one more name, if what there is before it is a directory. -/
def follow (place : Place) (name : String) : Except FileFault Place :=
  match directory.content place with
  | .directory =>
    if nameLimit < name.utf8ByteSize then .error .nameTooLong else .ok (place.enter name)
  | .file _ => .error .notDirectory
  | .nothing => .error .missing

/-- The place that the names of a path lead to. -/
def walk (path : String) (names : List String) : Except FileFault Place :=
  if pathLimit < path.utf8ByteSize then .error .nameTooLong
  else names.foldlM directory.follow (Place.start path)

/-- The bytes of the file at a path. -/
def read (path : String) : Except FileFault Bytes :=
  match directory.walk path (pathNames path) with
  | .error fault => .error fault
  | .ok place =>
    match directory.content place with
    | .file bytes => .ok bytes
    | .directory => .error .isDirectory
    | .nothing => .error .missing

/-- The names that are looked up in order to write to a path. With a slash at its end, the last name
is that of a directory. Such a name is not looked up, since the directory around it cannot be
written to either. -/
def writingNames (path : String) : List String :=
  let names := (pathNames path).filter (· ≠ "")
  if path.toList.getLast? = some '/' then names.dropLast ++ ["."] else names

/-- The place of the file that a path names for writing. -/
def writable (path : String) : Except FileFault Place :=
  match directory.walk path (writingNames path) with
  | .error fault => .error fault
  | .ok place =>
    match directory.content place with
    | .directory => .error .isDirectory
    | _ => .ok place

/-- The directory with other bytes in the file at a place. -/
def put (place : Place) (bytes : Bytes) : Directory where
  files := (place, bytes) :: directory.files.filter (·.1 != place)

/-- The file at a place holds what was put there. -/
theorem lookup_put_self (place : Place) (bytes : Bytes) :
    (directory.put place bytes).files.lookup place = some bytes := by
  simp [put]

/-- The files at other places keep what they hold. -/
theorem lookup_put_of_ne {place other : Place} (bytes : Bytes) (different : other ≠ place) :
    (directory.put place bytes).files.lookup other = directory.files.lookup other := by
  have apart : (other == place) = false := by simpa using different
  simp only [put, List.lookup_cons, apart]
  induction directory.files with
  | nil => rfl
  | cons file rest ih =>
    obtain ⟨name, content⟩ := file
    by_cases same : name = place
    · have away : (other == name) = false := by rw [same]; exact apart
      rw [List.filter_cons, if_neg (by simpa using same), ih, List.lookup_cons, away]
    · rw [List.filter_cons, if_pos (by simpa using same), List.lookup_cons, List.lookup_cons, ih]

/-- The directory after bytes have been written to the file at a path. -/
def write (path : String) (bytes : Bytes) : Except FileFault Directory :=
  (directory.writable path).map fun place => directory.put place bytes

end Directory

end Disassembler.CommandLine
