import EntityFoundry.Assets.Disk
/-! Assets by file name. A source produces the bytes of an asset; the cache in front of it reads
each asset once and keeps the copy that came first. -/
namespace EntityFoundry

structure AssetError where
  path : String
  fault : AssetFault
  deriving DecidableEq, Repr

def AssetError.message (e : AssetError) : String :=
  s!"failed to read asset {e.path}: {e.fault.message}"

inductive AssetSource
  | memory (files : Dict String Bytes) (reads : Nat)
  | directory (root : String) (disk : Disk)

namespace AssetSource

def load (source : AssetSource) (filename : String) : Except AssetError Bytes :=
  match source with
  | .memory files _ =>
    match files.get? filename with
    | some bytes => .ok bytes
    | none => .error ⟨filename, .unknown⟩
  | .directory root disk =>
    let path := Path.join root filename
    (disk.read path).mapError fun fault => ⟨path, fault⟩

def counted : AssetSource → AssetSource
  | .memory files reads => .memory files (reads + 1)
  | source => source

def reads? : AssetSource → Option Nat
  | .memory _ reads => some reads
  | .directory .. => none

def put (source : AssetSource) (file : String) (contents : Option Bytes) : AssetSource :=
  match source with
  | .memory files reads => .memory (files.insert file (contents.getD [])) reads
  | .directory root disk => .directory root (disk.provide file contents)

def delete (source : AssetSource) (file : String) : AssetSource :=
  match source with
  | .memory files reads => .memory (files.erase file) reads
  | .directory root disk => .directory root (disk.erase file)

end AssetSource

structure Cache where
  source : AssetSource
  assets : Dict String Bytes := {}

namespace Cache

def lookup (c : Cache) (filename : String) : Option Bytes := c.assets.get? filename

def keepFirst (c : Cache) (filename : String) (bytes : Bytes) : Bytes × Cache :=
  ((c.lookup filename).getD bytes, { c with assets := c.assets.insertNew filename bytes })

inductive Answer
  | cached (bytes : Bytes)
  | loaded (size : Nat) (bytes : Bytes)
  | failed (e : AssetError)

def Answer.result : Answer → Except AssetError Bytes
  | .cached bytes => .ok bytes
  | .loaded _ bytes => .ok bytes
  | .failed e => .error e

def getOrLoad (c : Cache) (filename : String) : Answer × Cache :=
  match c.lookup filename with
  | some bytes => (.cached bytes, c)
  | none =>
    let read := c.source.load filename
    let c := { c with source := c.source.counted }
    match read with
    | .error e => (.failed e, c)
    | .ok bytes =>
      let (kept, c) := c.keepFirst filename bytes
      (.loaded bytes.length kept, c)

def insert (c : Cache) (filename : String) (bytes : Bytes) : Cache :=
  { c with assets := c.assets.insert filename bytes }

def release (c : Cache) (filename : String) : Cache := { c with assets := c.assets.erase filename }

def contains (c : Cache) (filename : String) : Bool := c.assets.contains filename

def size (c : Cache) : Nat := c.assets.size

def describe (c : Cache) : String := s!"BlueprintCache \x7b assets: {c.size}, .. \x7d"

end Cache
end EntityFoundry
