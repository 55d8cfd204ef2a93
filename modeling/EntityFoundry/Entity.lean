import EntityFoundry.Wire.Target
import EntityFoundry.Wire.Writer
/-! Entities are numbers without content. A counter issues them from 1 on; 0 stands for none. The
numbers have 64 bits, so they come round where a counter is used that often. -/
namespace EntityFoundry

structure Entity where
  id : UInt64
  deriving DecidableEq, Repr

namespace Entity

def invalid : Entity := ⟨0⟩

def isValid (e : Entity) : Bool := e ≠ invalid

def text (e : Entity) : String := s!"Entity({e.id.toNat})"

def encode (e : Entity) : Bytes := Wire.putUnsigned e.id.toNat []

def decode (bytes : Bytes) : Except Wire.Fault Entity :=
  (Wire.Target.u64.decode bytes).map fun n => ⟨UInt64.ofNat n⟩

end Entity

structure Counter where
  issued : Nat := 0
  deriving DecidableEq, Repr

namespace Counter

def next (c : Counter) : UInt64 := UInt64.ofNat (c.issued + 1)

def issue (c : Counter) : Entity × Counter := (⟨c.next⟩, ⟨c.issued + 1⟩)

def count (c : Counter) : UInt64 := c.next - 1

def issueMany (c : Counter) (n : Nat) : List Entity × Counter :=
  ((List.range n).map fun i => ⟨c.next + UInt64.ofNat i⟩, ⟨c.issued + n⟩)

end Counter
end EntityFoundry
