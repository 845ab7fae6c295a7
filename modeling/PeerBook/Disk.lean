import PeerBook.Fault
import PeerBook.Octets
import PeerBook.Path
import Std.Data.TreeMap

namespace PeerBook

/--
The names that lead to a place, innermost first, from the root, whose own name is a slash, or from
the working directory.
-/
abbrev Place := List String

namespace Place

def root : Place := ["/"]

def isGround (place : Place) : Bool :=
  place == root || place.all (· == "..")

def above : Place → Place
  | [] => [".."]
  | name :: rest =>
    if name :: rest = root then root
    else if name = ".." then ".." :: name :: rest
    else rest

end Place

inductive Disk.Entry where
  | directory
  | file (content : Octets)
  deriving DecidableEq

structure Disk where
  entries : Std.TreeMap Place Disk.Entry := {}

namespace Disk

def entry? (d : Disk) (place : Place) : Option Entry :=
  if place.isGround then some .directory else d.entries[place]?

def put (d : Disk) (place : Place) (entry : Entry) : Disk :=
  ⟨d.entries.insert place entry⟩

def longestName : Nat := 255

def pathBound : Nat := 4096

def step (d : Disk) (place : Place) (part : String) : Except DiskFault Place :=
  match d.entry? place with
  | none => .error .notFound
  | some (.file _) => .error .notDirectory
  | some .directory =>
    if part = "" ∨ part = "." then .ok place
    else if part = ".." then .ok place.above
    else if longestName < part.utf8ByteSize then .error .nameTooLong
    else .ok (part :: place)

/-- Each part but the last must lead into a directory that is there. -/
def walk (d : Disk) (path : String) : Except DiskFault Place :=
  if pathBound ≤ path.utf8ByteSize then .error .nameTooLong
  else (Path.parts path).foldlM d.step (if Path.isAbsolute path then .root else [])

def at? (d : Disk) (path : String) : Option Entry :=
  (d.walk path).toOption.bind d.entry?

def isPresent (d : Disk) (path : String) : Bool :=
  (d.at? path).isSome

def isDirectory (d : Disk) (path : String) : Bool :=
  d.at? path == some .directory

def read (d : Disk) (path : String) : Except DiskFault Octets := do
  match d.entry? (← d.walk path) with
  | none => throw .notFound
  | some .directory => throw .isDirectory
  | some (.file content) => return content

def write (d : Disk) (path : String) (content : Octets) : Except DiskFault Disk := do
  let place ← d.walk path
  if d.entry? place = some .directory then throw .isDirectory
  return d.put place (.file content)

def makeDirectory (d : Disk) (path : String) : Except DiskFault Disk := do
  let place ← d.walk path
  if (d.entry? place).isSome then throw .alreadyExists
  return d.put place .directory

def ensureDirectory (d : Disk) (path : String) : Except DiskFault Unit × Disk :=
  match d.makeDirectory path with
  | .ok d => (.ok (), d)
  | .error fault => (if d.isDirectory path then .ok () else .error fault, d)

/--
Makes the first directory of a list, and before it the next ones as far as they are needed. What was
made stays, even if one of them cannot be made.
-/
def ensureDirectories (d : Disk) : List String → Except DiskFault Unit × Disk
  | [] => (.ok (), d)
  | path :: above =>
    if d.makeDirectory path matches .error .notFound then
      match d.ensureDirectories above with
      | (.ok (), d) => d.ensureDirectory path
      | failed => failed
    else d.ensureDirectory path

def ensureAncestors (d : Disk) (path : String) : Except DiskFault Unit × Disk :=
  d.ensureDirectories (Path.ancestors path)

end Disk

end PeerBook
