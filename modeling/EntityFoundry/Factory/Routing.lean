import EntityFoundry.Factory.Basic
/-! Attaching systems to a factory and routing component types to them. The latest registration of
a type counts; a type can be registered for a system that is attached later or never. -/
namespace EntityFoundry.Factory

def registerTag (f : Factory) (system : SystemId) (tag : Tag) : Factory :=
  let previous := f.routes.get? tag
  let f := { f with routes := f.routes.insert tag system }
  match previous with
  | some p => if p = system then f else f.note (.tagReassigned tag p system)
  | none => f

def declareDependency (f : Factory) (system dependency : SystemId) : Factory :=
  if f.startup.declares system dependency then f
  else { f with startup := f.startup.declare system dependency }.note
    (.dependencyDeclared system dependency)

def place (f : Factory) (system : SystemId) : Factory :=
  if f.positions.contains system then f
  else { f with
    positions := f.positions.insert system f.attached.length
    attached := f.attached ++ [system] }

def attachSystem (f : Factory) (system : SystemId) (state : system.State) : Factory :=
  let f := (system.tags state).foldl (·.registerTag system) f
  let f := (system.needs state).foldl (·.declareDependency system) f
  (f.place system).note (.systemAttached system)

def registerSystem (f : Factory) (system : SystemId) (state : system.State) :
    Except FactoryError Unit × Factory :=
  match f.systems.create? system state with
  | none => (.error (.alreadyRegistered system), f)
  | some systems => (.ok (), { f with systems := systems }.note (.registered system))

def createSystem (f : Factory) (system : SystemId) (state : system.State) :
    Except FactoryError Unit × Factory :=
  match f.registerSystem system state with
  | (.error e, f) => (.error e, f.note (.systemRefused e))
  | (.ok (), f) => (.ok (), f.attachSystem system state)

def attachRegistered (f : Factory) (system : SystemId) : Bool × Factory :=
  match f.systems.get? system with
  | none => (false, f.note (.systemNotFound system))
  | some state => (true, f.attachSystem system state)

def systemFor (f : Factory) (tag : Tag) : Option SystemId := do
  let system ← f.routes.get? tag
  let i ← f.positions.get? system
  f.attached[i]?

end EntityFoundry.Factory
