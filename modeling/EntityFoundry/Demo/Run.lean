import EntityFoundry.Console
import EntityFoundry.Demo.Cart
import EntityFoundry.Factory.Assets
import EntityFoundry.Factory.Destruction
import EntityFoundry.Factory.Starting
/-! The demonstration. A cart is finalized into an asset, spawned three times from it and damaged;
two carts are queued for destruction and take their wheels with them. -/
namespace EntityFoundry.Demo

inductive Failure
  | makingRoot (root : String) (fault : AssetFault)
  | writing (filename : String) (fault : AssetFault)
  | factory (e : FactoryError)
  | notSpawned (name : String)
  | survivors (n : Nat)
  deriving DecidableEq, Repr

def naming : SystemId → String := SystemId.path "engine_app"

def Failure.report : Failure → List String
  | .makingRoot root fault => because ("creating asset directory " ++ root) fault
  | .writing filename fault => because ("writing " ++ filename) fault
  | .factory e => ["Error: " ++ e.message naming]
  | .notSpawned name => ["Error: failed to spawn " ++ name]
  | .survivors n => [s!"Error: expected one surviving cart, found {n}"]
where
  because (action : String) (fault : AssetFault) : List String :=
    ["Error: " ++ action, "", "Caused by:", "    " ++ fault.message]

def cartName : String := "cart"

def assetRoot (asked : Option String) (temporary : String) : String :=
  asked.getD (Path.join temporary "engine_app_assets")

def directives (filter : String) : List Console.Directive :=
  Console.filter filter ⟨"engine_app", none, Level.info.detail⟩

def complaints (filter : String) (failure : Option Failure) : List String :=
  Console.ignored filter ++ (failure.map (·.report)).getD []

def console (filter : String) (f : Factory) : List String :=
  Console.lines naming (directives filter) f.history

def equip : List ((s : SystemId) × s.State) → Factory → Except FactoryError Unit × Factory
  | [], f => (.ok (), f)
  | ⟨s, state⟩ :: rest, f =>
    match f.createSystem s state with
    | (.error e, f) => (.error e, f)
    | (.ok (), f) => equip rest f

def systems : List ((s : SystemId) × s.State) :=
  [⟨.names, ({} : Dict Entity String)⟩, ⟨.healths, ({} : HealthStore)⟩,
    ⟨.transforms, ({} : Dict Entity Transform)⟩, ⟨.hierarchy, ({} : Links)⟩]

def prepare (root : String) (source : AssetSource) : Except FactoryError Unit × Factory :=
  let f : Factory := { config := { root := root }, cache := { source := source } }
  match equip systems (f.note (.milestone (.starting root))) with
  | (.error e, f) => (.error e, f)
  | (.ok (), f) =>
    let (started, f) := f.startSchema .standard componentNames
    (started, f.setHook .attaching)

def spawn : (n : Nat) → Factory → Except Failure (List Entity) × Factory
  | 0, f => (.ok [], f)
  | n + 1, f =>
    let (cart, f) := f.createNamed cartName
    if !cart.isValid then (.error (.notSpawned cartName), f)
    else
      let (carts, f) := spawn n f
      (carts.map (cart :: ·), f)

def cartMilestone (f : Factory) (cart : Entity) : Milestone :=
  let wheels := f.systems.childrenOf cart
  .cartSpawned cart wheels.length (wheels.all fun w => decide (f.systems.parentOf w = some cart))
    (f.systems.transformOf cart)

def entityCount (f : Factory) : Nat := ((f.systems.get? .names).map (·.size)).getD 0

def hit (f : Factory) (cart : Entity) : Factory :=
  match f.systems.damage cart (Single.ofInt 25) with
  | none => f
  | some (remaining, systems) =>
    let max := ((systems.healthOf cart).map (·.max)).getD Single.zero
    { f with systems := systems }.note (.milestone (.cartDamaged cart remaining max))

def play (f : Factory) : Except Failure Unit × Factory :=
  match spawn 3 f with
  | (.error e, f) => (.error e, f)
  | (.ok carts, f) =>
    let f := f.noteAll (carts.map fun cart => .milestone (cartMilestone f cart))
    let f := f.note (.milestone (.allSpawned (entityCount f)))
    let f := (carts.take 1).foldl hit f
    let f := ((carts.take 2).foldl Factory.queueForDestruction f).settleAll
    let survivors := f.blueprintNames.size
    if survivors ≠ 1 then (.error (.survivors survivors), f)
    else (.ok (), f.note (.milestone (.finished survivors (entityCount f))))

/-- What the demonstration asks of the machine it runs on. Where it makes the asset directory or
writes an asset, it is answered the assets there are then. -/
structure Machine (m : Type → Type) where
  makeRoot (root : String) : m (Except AssetFault AssetSource)
  write (root filename : String) (bytes : Bytes) : m (Except AssetFault AssetSource)
  print (lines : List String) : m Unit

section
variable {m : Type → Type} [Monad m] (machine : Machine m) (filter : String)

def orFail {α : Type} (failure : AssetFault → Failure) (action : m (Except AssetFault α)) :
    ExceptT Failure m α := ExceptT.mk ((·.mapError failure) <$> action)

def stage {ε α : Type} (failure : ε → Failure) (ended : Except ε α × Factory) :
    ExceptT Failure m (α × Factory) := do
  machine.print (console filter ended.2)
  return (← ended.1.mapError failure, { ended.2 with journal := [] })

def perform (root : String) : ExceptT Failure m Unit := do
  let source ← orFail (.makingRoot root) (machine.makeRoot root)
  let (_, f) ← stage machine filter .factory (prepare root source)
  let (bytes, f) ← stage machine filter .factory (f.finalizeTree cart)
  let filename := f.config.filename cartName
  let source ← orFail (.writing filename) (machine.write root filename bytes)
  let f := { f with cache := { source := source } }
  let written := f.note (.milestone (.assetWritten filename bytes.length))
  let _ ← stage machine filter id (play written)

end

structure World where
  lines : List String := []
  disk : Disk

def modelled : Machine (StateM World) where
  makeRoot root := do
    let world ← get
    let (made, disk) := world.disk.makeDirectories (Path.pieces root).length root
    set { world with disk := disk }
    return made.map fun () => .directory root disk
  write root filename bytes := do
    let world ← get
    match world.disk.write (Path.join root filename) bytes with
    | .error fault => return .error fault
    | .ok disk =>
      set { world with disk := disk }
      return .ok (.directory root disk)
  print lines := modify fun world => { world with lines := world.lines ++ lines }

structure Outcome extends World where
  failure : Option Failure

def run (asked : Option String) (temporary filter : String) (disk : Disk) : Outcome :=
  match (perform modelled filter (assetRoot asked temporary)).run { disk := disk } with
  | (.error failure, world) => ⟨world, some failure⟩
  | (.ok (), world) => ⟨world, none⟩

end EntityFoundry.Demo
