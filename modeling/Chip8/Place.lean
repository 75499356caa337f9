/-
**Places.**

Where files and directories are.  A place is the list of names that lead to it from the root, and
a path is a series of steps between places: into a directory by its name, or out of one by two
dots.  The root has nothing around it, so whoever leaves it is still there.

Some places are the same on every system: the usual directories and files, and the links between
them.  A link is a name that stands for another place; it may do so by way of further links.

Main definitions:

* `Chip8.Place` — a place, with `Chip8.Place.child` and `Chip8.Place.parent` for the steps;
* `Chip8.Place.steps`, `Chip8.Place.along` — the steps of a path and the place that names lead to;
* `Chip8.Link` — a name that stands for another place;
* `Chip8.Place.systemDirectories`, `Chip8.Place.systemFiles`, `Chip8.Link.ofSystem` — what every
  system has;
* `Chip8.Place.refusal?` — why no file can be made at a place.
-/
import Chip8.Error

set_option relaxedAutoImplicit false
set_option autoImplicit false

namespace Chip8

/-- Where a file or a directory is: the names that lead to it from the root, the last one first. -/
structure Place where
  /-- The names, inside out. -/
  names : List String
deriving DecidableEq, Repr

namespace Place

/-- The root, which holds everything. -/
def root : Place :=
  ⟨[]⟩

/-- The directory around a place; the root is around itself. -/
def parent (p : Place) : Place :=
  ⟨p.names.tail⟩

/-- The place of a name in a directory. -/
def child (p : Place) (name : String) : Place :=
  ⟨name :: p.names⟩

/-- The place that names lead to from the root. -/
def ofNames (names : List String) : Place :=
  names.foldl child root

/-- Whether a place is inside of a directory, at any depth. -/
def inside (p directory : Place) : Bool :=
  p != directory && directory.names.isSuffixOf p.names

/-- The steps of a path: what stands between its slashes. -/
def steps (path : String) : List String :=
  (path.splitOn "/").filter (· != "")

/-- The place that the names of a path lead to from a directory. -/
def along (p : Place) (path : String) : Place :=
  (steps path).foldl child p

/-! ### What every system has -/

/-- Where the running programs are told about. -/
def processes : Place :=
  ofNames ["proc"]

/-- What is told about the program itself. -/
def ownProcess : Place :=
  processes.child "self"

/-- The file that the program itself is run from. -/
def executable : Place :=
  ownProcess.child "exe"

/-- The file that tells the name of the program. -/
def ownName : Place :=
  ownProcess.child "comm"

/-- The terminal. -/
def terminal : Place :=
  ofNames ["dev", "tty"]

/-- The places of several names in each of several directories. -/
def gather (table : List (List String × List String)) : List Place :=
  table.flatMap fun p => p.2.map (ofNames p.1).child

/-- The usual directories. -/
def systemDirectories : List Place :=
  gather
    [([], ["boot", "dev", "etc", "home", "media", "mnt", "opt", "proc", "root", "run", "srv",
        "sys", "tmp", "usr", "var"]),
      (["dev"], ["pts", "shm"]),
      (["etc"], ["default", "opt", "skel"]),
      (["proc"], ["1", "bus", "driver", "fs", "irq", "self", "sys", "tty"]),
      (["proc", "self"], ["attr", "fd", "fdinfo", "map_files", "net", "ns", "task"]),
      (["proc", "sys"], ["fs", "kernel", "net", "vm"]),
      (["run"], ["lock"]),
      (["sys"], ["block", "bus", "class", "dev", "devices", "firmware", "fs", "kernel", "module"]),
      (["usr"], ["bin", "games", "include", "lib", "lib64", "local", "sbin", "share", "src"]),
      (["usr", "local"], ["bin", "etc", "games", "include", "lib", "sbin", "share", "src"]),
      (["usr", "share"], ["doc", "man", "misc"]),
      (["var"], ["cache", "lib", "local", "log", "mail", "opt", "spool", "tmp"])]

/-- The usual files.  Nothing is kept of what is written to them. -/
def systemFiles : List Place :=
  executable :: ownName ::
    gather
      [(["dev"], ["full", "null", "ptmx", "random", "tty", "urandom", "zero"]),
        (["etc"], ["group", "hostname", "hosts", "passwd"]),
        (["proc"], ["cmdline", "cpuinfo", "devices", "filesystems", "interrupts", "loadavg",
          "meminfo", "stat", "swaps", "uptime", "version", "vmstat"]),
        (["proc", "self"], ["auxv", "cgroup", "cmdline", "environ", "io", "limits", "maps",
          "mem", "mountinfo", "mounts", "smaps", "stat", "statm", "status", "wchan"])]

/-- What the usual files hold: the name of the program is known, the others are taken to be
empty. -/
def contents (p : Place) : List UInt8 :=
  if p = ownName then "chip8vm\n".toUTF8.toList else []

/-- Why no file can be made at a place: the system makes its own where it tells about itself. -/
def refusal? (p : Place) : Option SystemCause :=
  if p.inside processes then some .notFound
  else if p.inside (ofNames ["sys"]) then some .permissionDenied
  else none

end Place

/-- A name that stands for another place. -/
structure Link where
  source : Place
  /-- The place that it stands for. -/
  target : Place
  /-- How many links are followed from the one to the other. -/
  length : Nat
deriving DecidableEq, Repr

namespace Link

open Place

/-- How many links are followed at most on the way along a path. -/
def limit : Nat :=
  40

/-- The usual links. -/
def ofSystem : List Link :=
  [⟨ofNames ["bin"], ofNames ["usr", "bin"], 1⟩,
    ⟨ofNames ["lib"], ofNames ["usr", "lib"], 1⟩,
    ⟨ofNames ["lib64"], ofNames ["usr", "lib64"], 1⟩,
    ⟨ofNames ["sbin"], ofNames ["usr", "sbin"], 1⟩,
    ⟨ofNames ["var", "lock"], ofNames ["run", "lock"], 1⟩,
    ⟨ofNames ["var", "run"], ofNames ["run"], 1⟩,
    ⟨ownProcess, ownProcess, 1⟩,
    ⟨processes.child "thread-self", ownProcess, 1⟩,
    ⟨processes.child "mounts", ownProcess.child "mounts", 2⟩,
    ⟨processes.child "net", ownProcess.child "net", 2⟩,
    ⟨ownProcess.child "root", root, 1⟩,
    ⟨executable, executable, 1⟩,
    ⟨ofNames ["dev", "fd"], ownProcess.child "fd", 2⟩] ++
    (["0", "1", "2"].map fun n => ⟨(ownProcess.child "fd").child n, terminal, 1⟩) ++
    ["stdin", "stdout", "stderr"].map fun n => ⟨(ofNames ["dev"]).child n, terminal, 3⟩

end Link

end Chip8
