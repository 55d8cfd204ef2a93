import EntityFoundry.Assets.Path
import EntityFoundry.Dict
import EntityFoundry.Text.Utf8
/-! A tree of files below a working directory. Paths are walked step by step, as the file system
does: each step starts from a directory, and the first that cannot be taken decides the fault. What
lies above the working directory is a directory of unknown contents. -/
namespace EntityFoundry

inductive AssetFault
  | unknown
  | notFound
  | denied
  | occupied
  | notDirectory
  | isDirectory
  | nameTooLong
  | embeddedNul
  deriving DecidableEq, Repr

def AssetFault.message : AssetFault → String
  | .unknown => "no such asset"
  | .notFound => "No such file or directory (os error 2)"
  | .denied => "Permission denied (os error 13)"
  | .occupied => "File exists (os error 17)"
  | .notDirectory => "Not a directory (os error 20)"
  | .isDirectory => "Is a directory (os error 21)"
  | .nameTooLong => "File name too long (os error 36)"
  | .embeddedNul => "file name contained an unexpected NUL byte"

/-- Where a walk stands: in the tree, with the names from its top down, last first, or a number of
levels above the working directory. -/
inductive Place
  | inside (names : List String)
  | above (levels : Nat)
  deriving DecidableEq, Repr

structure Disk where
  nodes : Dict (List String) (Option Bytes) := {}
  deriving Repr

namespace Disk

def top : List String := ["/"]

def isDirectory (d : Disk) : Place → Bool
  | .above _ => true
  | .inside [] => true
  | .inside names => names = top || d.nodes.get? names = some none

def maxName : Nat := 255
def maxPath : Nat := 4095

def step (d : Disk) (place : Place) (piece : String) : Except AssetFault Place :=
  if !d.isDirectory place then .error .notDirectory
  else if piece.isEmpty || piece = "." then .ok place
  else if piece = ".." then
    match place with
    | .above n => .ok (.above (n + 1))
    | .inside [] => .ok (.above 1)
    | .inside (name :: names) => .ok (.inside (if name :: names = top then top else names))
  else if maxName < (Text.Utf8.encode piece).length then .error .nameTooLong
  else
    match place with
    | .above _ => .error .notFound
    | .inside names =>
      if d.nodes.contains (piece :: names) then .ok (.inside (piece :: names)) else .error .notFound

def start (path : String) : Place := if Path.isAbsolute path then .inside top else .inside []

def textFault? (path : String) : Option AssetFault :=
  if path.toList.contains '\x00' then some .embeddedNul
  else if path.isEmpty then some .notFound
  else if maxPath < (Text.Utf8.encode path).length then some .nameTooLong
  else none

def walk (d : Disk) (path : String) : Except AssetFault Place :=
  match textFault? path with
  | some fault => .error fault
  | none => (Path.pieces path).foldlM d.step (start path)

def read (d : Disk) (path : String) : Except AssetFault Bytes := do
  match ← d.walk path with
  | .above _ => throw .isDirectory
  | .inside names =>
    if d.isDirectory (.inside names) then throw .isDirectory
    match d.nodes.get? names with
    | some (some contents) => return contents
    | _ => throw .notFound

def lastPiece? (path : String) : Option (List String × String) :=
  match (Path.pieces path).reverse.dropWhile (·.isEmpty) with
  | [] => none
  | last :: front => some (front.reverse, last)

def newEntry (d : Disk) (notNew : AssetFault) (path : String) : Except AssetFault (List String) := do
  if let some fault := textFault? path then throw fault
  match lastPiece? path with
  | none => throw notNew
  | some (front, last) =>
    let place ← front.foldlM d.step (start path)
    if !d.isDirectory place then throw .notDirectory
    if last = "." || last = ".." then throw notNew
    if maxName < (Text.Utf8.encode last).length then throw .nameTooLong
    match place with
    | .above _ => throw .notFound
    | .inside names => return last :: names

def write (d : Disk) (path : String) (contents : Bytes) : Except AssetFault Disk := do
  let entry ← d.newEntry .isDirectory path
  if path.toList.getLast? = some '/' || d.isDirectory (.inside entry) then throw .isDirectory
  return { d with nodes := d.nodes.insert entry (some contents) }

def makeDirectory (d : Disk) (path : String) : Except AssetFault Disk := do
  let entry ← d.newEntry .occupied path
  if d.nodes.contains entry then throw .occupied
  return { d with nodes := d.nodes.insert entry none }

def leadsToDirectory (d : Disk) (path : String) : Bool :=
  match d.walk path with
  | .ok place => d.isDirectory place
  | .error _ => false

def ensureDirectory (d : Disk) (path : String) : Except AssetFault Unit × Disk :=
  match d.makeDirectory path with
  | .ok made => (.ok (), made)
  | .error fault => (if d.leadsToDirectory path then .ok () else .error fault, d)

/-- Creates a directory and those above it that are missing, from the top down; what was made before
a fault stays. `fuel` bounds their number. -/
def makeDirectories (d : Disk) (fuel : Nat) (path : String) : Except AssetFault Unit × Disk :=
  if path.isEmpty then (.ok (), d)
  else
    match d.ensureDirectory path, fuel with
    | (.error .notFound, d), fuel + 1 =>
      match Path.parent? path with
      | none => (.error .notFound, d)
      | some parent =>
        match makeDirectories d fuel parent with
        | (.error fault, d) => (.error fault, d)
        | (.ok (), d) => d.ensureDirectory path
    | attempt, _ => attempt

def provide (d : Disk) (path : String) (contents : Option Bytes) : Disk :=
  let fuel := (Path.pieces path).length
  let (_, d) := d.makeDirectories fuel ((Path.parent? path).getD "")
  match contents with
  | none => (d.makeDirectories fuel path).2
  | some bytes => (d.write path bytes).toOption.getD d

def erase (d : Disk) (path : String) : Disk :=
  match d.walk path with
  | .ok (.inside names) =>
    if d.isDirectory (.inside names) then d else { d with nodes := d.nodes.erase names }
  | _ => d

end Disk
end EntityFoundry
