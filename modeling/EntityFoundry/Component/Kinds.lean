import EntityFoundry.Component.Record
import EntityFoundry.Wire.Record
/-! The component types: names, health and transforms, each with its tag, its written form and the
target it is read by. -/
namespace EntityFoundry

inductive ComponentError
  | decode (fault : Wire.Fault)
  | unsupported (tag : Tag)
  | maxNotPositive (max : Single)
  | rejected (system : String)
  deriving DecidableEq, Repr

def ComponentError.message : ComponentError → String
  | .decode fault => "failed to decode component payload: " ++ fault.message
  | .unsupported tag => "unsupported component type " ++ tag.text
  | .maxNotPositive max =>
    s!"invalid component data: max health must be positive, got {max.plain}"
  | .rejected system => "invalid component data: rejected by " ++ system

structure Health where
  current : Single
  max : Single
  deriving DecidableEq, Repr

structure Transform where
  x : Single
  y : Single
  z : Single
  deriving DecidableEq, Repr

inductive Kind
  | name
  | health
  | transform
  deriving DecidableEq, Repr

abbrev Kind.Value : Kind → Type
  | .name => String
  | .health => Health
  | .transform => Transform

namespace Kind

def typeName : Kind → String
  | .name => "NameDef"
  | .health => "HealthDef"
  | .transform => "TransformDef"

def tag (k : Kind) : Tag := Tag.ofName k.typeName

end Kind

open Wire

namespace Health

def full (max : Single) : Health := ⟨max, max⟩

structure Partial where
  current : Option Single := none
  max : Option Single := none

def shape : Shape Partial Health where
  name := "Health"
  slots := [
    .ofTarget "current" Target.single (·.current) fun x s => { s with current := some x },
    .ofTarget "max" Target.single (·.max) fun x s => { s with max := some x }]
  start := {}
  finish absent s :=
    match s.current, s.max with
    | some current, some max => .ok ⟨current, max⟩
    | none, _ => .error (absent "current")
    | _, none => .error (absent "max")

def put (h : Health) (rest : Bytes) : Bytes :=
  putMap 2 (putText "current" (putSingle h.current (putText "max" (putSingle h.max rest))))

end Health

namespace Transform

structure Partial where
  position : Option (Single × Single × Single) := none

def shape (room : Nat) : Shape Partial Transform where
  name := "Transform"
  slots := [
    .ofTarget "position" (Target.triple (room - 1) Target.single) (·.position)
      fun p s => { s with position := some p }]
  start := {}
  finish absent s :=
    match s.position with
    | some (x, y, z) => .ok ⟨x, y, z⟩
    | none => .error (absent "position")

def text (t : Transform) : String := s!"[{t.x.general}, {t.y.general}, {t.z.general}]"

def put (t : Transform) (rest : Bytes) : Bytes :=
  putMap 1 (putText "position"
    (putArray 3 (putSingle t.x (putSingle t.y (putSingle t.z rest)))))

end Transform

namespace Kind

def target : (k : Kind) → Target k.Value
  | .name => Target.text "a string" maxOpen
  | .health => Health.shape.target maxOpen
  | .transform => (Transform.shape maxOpen).target maxOpen

def encode : (k : Kind) → k.Value → Bytes
  | .name, s => putText s []
  | .health, h => h.put []
  | .transform, t => t.put []

end Kind

namespace Record

def ofValue (k : Kind) (x : k.Value) : Record := ⟨k.tag, .owned (k.encode x)⟩

def decode (r : Record) (k : Kind) : Except ComponentError k.Value :=
  if r.tag = k.tag then (k.target.decode r.data.bytes).mapError .decode
  else .error (.unsupported r.tag)

end Record
end EntityFoundry
