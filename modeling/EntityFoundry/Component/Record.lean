import EntityFoundry.Component.Tag
/-! Component payloads and records. A payload is a view into the bytes it was read from, or bytes
of its own; which of the two plays no part in equality. -/
namespace EntityFoundry

structure Payload where
  bytes : Bytes
  borrowed : Bool := false
  deriving DecidableEq, Repr

namespace Payload

def owned (bytes : Bytes) : Payload := ⟨bytes, false⟩

def view (bytes : Bytes) : Payload := ⟨bytes, true⟩

def reborrow (p : Payload) : Payload := view p.bytes

instance : BEq Payload := ⟨fun p q => p.bytes == q.bytes⟩

def put (p : Payload) (rest : Bytes) : Bytes := Wire.putBinary p.bytes rest

open Wire in
def target (room : Nat) : Target Payload where
  expected := "encoded component bytes"
  read := do
    match ← readHead with
    | .binary raw => return view raw
    | .text raw =>
      match Text.Utf8.decode raw with
      | .ok s => throw (.wrongType (.text s) "encoded component bytes")
      -- Text that is not well formed is handed over as bytes.
      | .error _ => return view raw
    | .array n =>
      if room = 0 then throw .depthLimit
      else return owned ((← readMany Target.u8.read n []).map UInt8.ofNat)
    | head => throw (head.refusal room "encoded component bytes")
  ofByte := Target.refuseByte "encoded component bytes"

def decode (bytes : Bytes) : Except Wire.Fault Payload := (target Wire.maxOpen).decode bytes

end Payload

structure Record where
  tag : Tag
  data : Payload
  deriving DecidableEq, Repr

instance : BEq Record := ⟨fun r s => r.tag == s.tag && r.data == s.data⟩

end EntityFoundry
