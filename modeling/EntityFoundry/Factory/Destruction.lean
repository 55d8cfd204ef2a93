import EntityFoundry.Factory.Basic
/-! Destroying entities, at once or from a queue. What is queued while the queue is worked off
waits for the next time. -/
namespace EntityFoundry.Factory

def destroyIn (e : Entity) (f : Factory) (system : SystemId) : Factory :=
  match f.systems.get? system with
  | none => f
  | some state =>
    { f.tell (.destroy system e) with queue := f.queue ++ system.queues e state }

def destroy (f : Factory) (e : Entity) : Factory :=
  let f := f.attached.foldl (destroyIn e) f
  { f with blueprintNames := f.blueprintNames.erase e }.note (.destroyed e)

def queueForDestruction (f : Factory) (e : Entity) : Factory := { f with queue := f.queue ++ [e] }

def destroyQueued (f : Factory) : Factory :=
  match f.queue with
  | [] => f
  | queued => (queued.foldl destroy { f with queue := [] }).note (.queueDestroyed queued.length)

def settle : (rounds : Nat) → Factory → Nat × Factory
  | 0, f => (0, f)
  | rounds + 1, f =>
    if f.queue.isEmpty then (0, f)
    else
      let (n, f) := settle rounds f.destroyQueued
      (n + 1, f)

def linkCount (f : Factory) : Nat :=
  match f.systems.get? .hierarchy with
  | some links => (links.children.entries.flatMap (·.2)).length
  | none => 0

/-- Works the queue off to its end. Where only the hierarchy queues, every round after the first
takes children off their lists, which bounds the rounds. -/
def settleAll (f : Factory) : Factory := (settle (f.linkCount + 1) f).2

end EntityFoundry.Factory
