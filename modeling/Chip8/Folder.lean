/-
**Files and what paths lead to.**

A program is read from a file and records are appended to another one, both named by paths.  A path
is a series of steps from the folder or, if it begins with a slash, from the root.  Every step but
the last has to end in a directory; a dot stays there and two dots lead to the directory around it.
A slash at the end asks for a directory, so no file is opened by such a path and none is made.

What lies outside of the folder is not recorded: all directories around it are there, and of the
rest only what every system has.  One of the links on a system leads to the folder itself, wherever
that is; on the way along a path only so many links are followed.

Main definitions:

* `Chip8.Entry` — what opening a path for reading gives, with `Chip8.Entry.source`;
* `Chip8.Folder` — where a folder is, and its files and directories;
* `Chip8.Folder.look` — what a name in a directory stands for;
* `Chip8.Folder.walk`, `Chip8.Folder.locate` — what the steps of a path lead to;
* `Chip8.Folder.entry`, `Chip8.Folder.target`, `Chip8.Folder.append` — read a file, find or make one
  to write to, and append to it.
-/
import Chip8.ByteSource
import Chip8.Place

set_option relaxedAutoImplicit false
set_option autoImplicit false

namespace Chip8

/-- What opening a path for reading gives. -/
inductive Entry where
  | file (bytes : List UInt8)
  /-- A directory, which can be opened but not read. -/
  | directory
  /-- Nothing that can be opened. -/
  | missing (cause : SystemCause)
deriving DecidableEq, Repr

namespace Entry

/-- The bytes behind an entry, if it can be opened. -/
def source : Entry → Except SystemCause ByteSource
  | file bytes => .ok ⟨[bytes], none⟩
  | directory => .ok ⟨[], some (.system .isADirectory)⟩
  | missing cause => .error cause

end Entry

/-- A folder, with its files and directories. -/
structure Folder where
  place : Place
  files : List (Place × List UInt8)
  /-- The directories; those that hold files need not be listed. -/
  directories : List Place

/-- What a name or a path stands for. -/
inductive Location where
  | file (place : Place) (bytes : List UInt8)
  /-- A directory, and how many links may still be followed from there. -/
  | directory (place : Place) (links : Nat)
  /-- Nothing, in a directory that is there. -/
  | vacant (place : Place)
  /-- Nothing that can be reached. -/
  | unreachable (cause : SystemCause)
deriving DecidableEq, Repr

namespace Folder

/-- The longest name of a file, in bytes. -/
def nameLimit : Nat :=
  255

/-- The longest path, in bytes. -/
def pathLimit : Nat :=
  4095

/-- The folder at a place, with files and directories of given names. -/
def ofNames (place : Place) (files : List (String × List UInt8)) (directories : List String) :
    Folder :=
  ⟨place, files.map fun p => (place.along p.1, p.2), directories.map place.along⟩

/-! ### Names -/

/-- The links: the usual ones, and the one from the program to the folder that it runs in. -/
def links (f : Folder) : List Link :=
  ⟨Place.ownProcess.child "cwd", f.place, 1⟩ :: Link.ofSystem

/-- The files of the folder and of the system. -/
def allFiles (f : Folder) : List (Place × List UInt8) :=
  f.files ++ Place.systemFiles.map fun p => (p, p.contents)

/-- Whether there is a directory at a place: the folder and what is around it, what the folder or
the system has, and whatever holds a file. -/
def holdsDirectory (f : Folder) (p : Place) : Bool :=
  p = f.place || f.place.inside p || p ∈ f.directories || p ∈ Place.systemDirectories ||
    f.files.any fun q => q.1.inside p

/-- The place that a place stands for, and how many links lead there. -/
def follow (f : Folder) (p : Place) : Place × Nat :=
  match f.links.find? fun l => l.source == p with
  | some l => (l.target, l.length)
  | none => (p, 0)

/-- What a name in a directory stands for, if so many links may be followed. -/
def look (f : Folder) (links : Nat) (directory : Place) (name : String) : Location :=
  let (p, followed) := f.follow (directory.child name)
  if links < followed then .unreachable .tooManyLinks
  else
    match f.allFiles.lookup p with
    | some bytes => .file p bytes
    | none =>
      if f.holdsDirectory p then .directory p (links - followed)
      else if nameLimit < name.utf8ByteSize ∧ p.refusal? = none then .unreachable .nameTooLong
      else .vacant p

/-! ### Paths -/

/-- What steps from a directory lead to, if so many links may be followed. -/
def walk (f : Folder) : Nat → Place → List String → Location
  | links, p, [] => .directory p links
  | links, p, "." :: rest => f.walk links p rest
  | links, p, ".." :: rest => f.walk links p.parent rest
  | links, p, name :: rest =>
    match f.look links p name with
    | .directory p links => f.walk links p rest
    | .file p bytes => if rest = [] then .file p bytes else .unreachable .notADirectory
    | .vacant p => if rest = [] then .vacant p else .unreachable .notFound
    | .unreachable cause => .unreachable cause

/-- What some of the steps of a path lead to. -/
def locate (f : Folder) (path : String) (steps : List String) : Location :=
  if path = "" then .unreachable .notFound
  else if pathLimit < path.utf8ByteSize then .unreachable .nameTooLong
  else f.walk Link.limit (if path.startsWith "/" then .root else f.place) steps

/-- What opening a path for reading gives. -/
def entry (f : Folder) (path : String) : Entry :=
  match f.locate path (Place.steps path) with
  | .file _ bytes => if path.endsWith "/" then .missing .notADirectory else .file bytes
  | .directory _ _ => .directory
  | .vacant _ => .missing .notFound
  | .unreachable cause => .missing cause

/-- The place of the file that a path names for writing, which is made if need be.  If a slash is
at the end, the last name is not even looked up. -/
def target (f : Folder) (path : String) : Except SystemCause Place :=
  if path.endsWith "/" then
    match f.locate path (Place.steps path).dropLast with
    | .file _ _ => .error .notADirectory
    | .directory _ _ => .error .isADirectory
    | .vacant _ => .error .notFound
    | .unreachable cause => .error cause
  else
    match f.locate path (Place.steps path) with
    | .file p _ => if p = .executable then .error .fileBusy else .ok p
    | .directory _ _ => .error .isADirectory
    | .vacant p =>
      match p.refusal? with
      | some cause => .error cause
      | none => .ok p
    | .unreachable cause => .error cause

/-- Append bytes to a file, which is made if need be. -/
def append (f : Folder) (p : Place) (bytes : List UInt8) : Folder :=
  if p ∈ Place.systemFiles then f
  else if f.files.any fun q => q.1 == p then
    { f with files := f.files.map fun q => if q.1 == p then (p, q.2 ++ bytes) else q }
  else { f with files := f.files ++ [(p, bytes)] }

end Folder

end Chip8
