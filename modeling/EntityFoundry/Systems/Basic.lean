import EntityFoundry.Journal
import EntityFoundry.Systems.Links
import EntityFoundry.Systems.Probe
/-! The systems: the state each owns, the component types and dependencies it declares, and what it
does when it is started and when an entity is created or destroyed. -/
namespace EntityFoundry

/-- Health by entity. `labelled` tells whether names were at hand when the system was started. -/
structure HealthStore where
  healths : Dict Entity Health := {}
  labelled : Bool := false
  deriving Repr

abbrev SystemId.State : SystemId → Type
  | .names => Dict Entity String
  | .healths => HealthStore
  | .transforms => Dict Entity Transform
  | .hierarchy => Links
  | .plain => Unit
  | .probe _ => Probe

abbrev Systems := Registry SystemId SystemId.State

namespace SystemId

def tags : (s : SystemId) → s.State → List Tag
  | .names, _ => [Kind.name.tag]
  | .healths, _ => [Kind.health.tag]
  | .transforms, _ => [Kind.transform.tag]
  | .hierarchy, _ => []
  | .plain, _ => []
  | .probe _, p => p.tags

def needs : (s : SystemId) → s.State → List SystemId
  | .healths, _ => [.names]
  | .probe _, p => p.needs
  | _, _ => []

def hear (c : Call) : (s : SystemId) → s.State → s.State
  | .probe _, p => p.hear c
  | .names, d => d
  | .healths, h => h
  | .transforms, d => d
  | .hierarchy, l => l
  | .plain, u => u

def start (registered : List SystemId) : (s : SystemId) → s.State → s.State
  | .healths, h => { h with labelled := decide (.names ∈ registered) }
  | .names, d => d
  | .transforms, d => d
  | .hierarchy, l => l
  | .plain, u => u
  | .probe _, p => p

def verdict : (s : SystemId) → s.State → Entity → Record → Except ComponentError Unit
  | .names, _, _, r => (r.decode .name).map fun _ => ()
  | .healths, _, _, r => do
    let health ← r.decode .health
    if health.max.isNonPositive then throw (.maxNotPositive health.max)
  | .transforms, _, _, r => (r.decode .transform).map fun _ => ()
  | .hierarchy, _, _, _ => .ok ()
  | .plain, _, _, _ => .ok ()
  | .probe _, p, e, r => p.judge p.memory e r

def accepts (s : SystemId) (state : s.State) (e : Entity) (r : Record) : Bool :=
  (s.verdict state e r).toBool

def store (e : Entity) (r : Record) : (s : SystemId) → s.State → s.State
  | .names, d =>
    match r.decode .name with
    | .ok name => d.insert e name
    | .error _ => d
  | .healths, h =>
    match r.decode .health with
    | .ok health => { h with healths := h.healths.insert e health }
    | .error _ => h
  | .transforms, d =>
    match r.decode .transform with
    | .ok transform => d.insert e transform
    | .error _ => d
  | .hierarchy, l => l
  | .plain, u => u
  | .probe _, p => p

def forget (e : Entity) : (s : SystemId) → s.State → s.State
  | .names, d => d.erase e
  | .healths, h => { h with healths := h.healths.erase e }
  | .transforms, d => d.erase e
  | .hierarchy, l => l.detach e
  | .plain, u => u
  | .probe _, p => p

def queues (e : Entity) : (s : SystemId) → s.State → List Entity
  | .hierarchy, l => l.orphans e
  | .probe _, p => p.release p.memory e
  | _, _ => []

def told (c : Call) (s : SystemId) (state : s.State) : s.State :=
  let heard := s.hear c state
  match c with
  | .start _ registered => s.start registered heard
  | .create _ e r => if s.accepts state e r then s.store e r heard else heard
  | .destroy _ e => s.forget e heard
  | _ => heard

end SystemId

namespace Systems

def nameOf (all : Systems) (e : Entity) : Option String := (all.get? .names).bind (·.get? e)

def healthOf (all : Systems) (e : Entity) : Option Health :=
  (all.get? .healths).bind (·.healths.get? e)

def transformOf (all : Systems) (e : Entity) : Option Transform :=
  (all.get? .transforms).bind (·.get? e)

def parentOf (all : Systems) (e : Entity) : Option Entity :=
  (all.get? .hierarchy).bind (·.parentOf e)

def childrenOf (all : Systems) (e : Entity) : List Entity :=
  ((all.get? .hierarchy).map (·.childrenOf e)).getD []

def unnamed : String := "<unnamed>"

def storeNotices (e : Entity) (r : Record) : SystemId → List Notice
  | .transforms =>
    match r.decode .transform with
    | .ok transform => [.placed e transform]
    | .error _ => []
  | _ => []

def afterNotices (all : Systems) (e : Entity) : SystemId → List Notice
  | .healths =>
    match all.get? .healths with
    | none => []
    | some h =>
      match h.healths.get? e with
      | none => []
      | some health =>
        [.spawned e ((if h.labelled then all.nameOf e else none).getD unnamed) health]
  | _ => []

def damage (all : Systems) (e : Entity) (amount : Single) : Option (Single × Systems) := do
  let h ← all.get? .healths
  let health ← h.healths.get? e
  let remaining := (health.current.sub amount).atLeastZero
  let hurt := { health with current := remaining }
  return (remaining, all.set .healths { h with healths := h.healths.insert e hurt })

def attach (all : Systems) (parent child : Entity) : Systems :=
  all.update .hierarchy (·.attach parent child)

def told (all : Systems) (c : Call) : Systems :=
  match c.system? with
  | some system => all.update system (system.told c)
  | none => all

end Systems
end EntityFoundry
