import EntityFoundry.Factory.Routing
/-! Creating entities. A node's records go to their systems in order, then the systems that took
one hear of it again; only then do the children follow, each through the hook. -/
namespace EntityFoundry.Factory

def create (f : Factory) : Entity × Factory :=
  let (e, counter) := f.counter.issue
  (e, { f with counter := counter })

def offer (f : Factory) (e : Entity) (r : Record) : Option SystemId × Factory :=
  match f.systemFor r.tag with
  | none => (none, f.note (.unrouted e r.tag))
  | some system =>
    match f.systems.get? system with
    | none => (none, f)
    | some state =>
      let f := f.tell (.create system e r)
      match system.verdict state e r with
      | .error error => (none, f.note (.componentFailed e r.tag error))
      | .ok () => (some system, f.noteAll (Systems.storeNotices e r system))

def offerAll (e : Entity) (taken : List (SystemId × Record)) :
    Blueprint → Factory → List (SystemId × Record) × Factory
  | [], f => (taken.reverse, f)
  | r :: rs, f =>
    match f.offer e r with
    | (some system, f) => offerAll e ((system, r) :: taken) rs f
    | (none, f) => offerAll e taken rs f

def afterCreate (e : Entity) (f : Factory) (taken : SystemId × Record) : Factory :=
  let f := f.tell (.afterCreate taken.1 e taken.2)
  f.noteAll (f.systems.afterNotices e taken.1)

def dispatch (f : Factory) (e : Entity) (b : Blueprint) : Factory :=
  let (taken, f) := offerAll e [] b f
  taken.foldl (afterCreate e) f

def createWithBlueprint (f : Factory) (b : Blueprint) : Entity × Factory :=
  let (e, f) := f.create
  (e, f.dispatch e b)

def attachChild (f : Factory) (parent child : Entity) : Factory :=
  if child.isValid then
    { f with systems := f.systems.attach parent child }.note (.childAttached parent child)
  else f

def noteChild (f : Factory) (parent child : Entity) : Factory :=
  f.note (if child.isValid then .childCreated parent child else .childFailed parent)

def createChild (fill : Entity → Factory → Factory) (b : Blueprint) (parent : Entity)
    (f : Factory) : Entity × Factory :=
  match f.hook with
  | .parentless =>
    let (child, f) := f.create
    (child, fill child f)
  | .attaching =>
    let (child, f) := f.create
    (child, (fill child f).attachChild parent child)
  | .scripted style failing calls =>
    let f := { f with hook := .scripted style failing (calls + 1) }
    if calls ∈ failing then (.invalid, f)
    else match style with
      | .linking =>
        let (child, f) := f.create
        (child, (fill child f).called (.createChild style parent child))
      | .populating =>
        let (child, f) := f.create
        let f := f.called (.createChild style parent child)
        if child.isValid then (child, fill child f) else (.invalid, f.note .invalidPopulated)
      | .shallow =>
        let (child, f) := f.createWithBlueprint b
        (child, f.called (.createChild style parent child))

mutual

def build (e : Entity) : Tree → Factory → Factory
  | .node b ts, f => buildChildren e ts (f.dispatch e b)

def buildChildren (parent : Entity) : List Tree → Factory → Factory
  | [], f => f
  | t :: ts, f =>
    let (child, f) := f.createChild (fun child f => build child t f) t.blueprint parent
    buildChildren parent ts (f.noteChild parent child)

end

def createWithTree (f : Factory) (t : Tree) : Entity × Factory :=
  let (e, f) := f.create
  (e, build e t f)

def populateWithTree (f : Factory) (e : Entity) (t : Tree) : Entity × Factory :=
  if e.isValid then (e, build e t f) else (.invalid, f.note .invalidPopulated)

end EntityFoundry.Factory
