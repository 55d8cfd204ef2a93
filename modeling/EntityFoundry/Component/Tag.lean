import EntityFoundry.Text.Hex
import EntityFoundry.Wire.Target
import EntityFoundry.Wire.Writer
/-! Tags of component types: the 64-bit FNV-1a hash of a type's name. -/
namespace EntityFoundry

structure Tag where
  hash : UInt64
  deriving DecidableEq, Repr

namespace Tag

def offsetBasis : UInt64 := 0xcbf29ce484222325
def prime : UInt64 := 0x100000001b3

def mix (h : UInt64) (b : UInt8) : UInt64 := (h ^^^ b.toUInt64) * prime

def hashBytes (bytes : Bytes) : UInt64 := bytes.foldl mix offsetBasis

def ofName (name : String) : Tag := ⟨hashBytes (Text.Utf8.encode name)⟩

def text (t : Tag) : String := "0x" ++ Text.hex 16 t.hash.toNat

def encode (t : Tag) : Bytes := Wire.putUnsigned t.hash.toNat []

def decode (bytes : Bytes) : Except Wire.Fault Tag :=
  (Wire.Target.u64.decode bytes).map fun n => ⟨UInt64.ofNat n⟩

end Tag
end EntityFoundry
