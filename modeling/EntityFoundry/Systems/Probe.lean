import EntityFoundry.Component.Kinds
import EntityFoundry.Systems.Call
/-! Systems given from outside by their answers. A system may remember the calls it got, and answer
by what it remembers. -/
namespace EntityFoundry

structure Probe where
  tags : List Tag := []
  needs : List SystemId := []
  verdict : Record → Except ComponentError Unit := fun _ => .ok ()
  queues : Entity → List Entity := fun _ => []
  -- The answers of a system that remembers; without memory they are the two above.
  memory : Bytes := []
  learn : Bytes → Call → Bytes := fun memory _ => memory
  judge : Bytes → Entity → Record → Except ComponentError Unit := fun _ _ => verdict
  release : Bytes → Entity → List Entity := fun _ => queues

namespace Probe

def hear (p : Probe) (c : Call) : Probe := { p with memory := p.learn p.memory c }

def screen (label : String) (kind : Option Kind) (refused : List Bytes) (r : Record) :
    Except ComponentError Unit := do
  if let some k := kind then
    let _ ← r.decode k
  if refused.any (·.isPrefixOf r.data.bytes) then throw (.rejected label)

end Probe
end EntityFoundry
