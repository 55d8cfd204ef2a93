import EntityFoundry.Factory.Config
import EntityFoundry.Schema.Finalizing
import EntityFoundry.Schema.Loading
import EntityFoundry.Systems.Basic
/-! The state of a factory: its systems and the routes to them, the adapters between assets and
trees, what it knows of the entities it made, and the journal of what it did. -/
namespace EntityFoundry

/-- What becomes of the children of a tree: entities of their own, entities attached to their
parent, or what a script says. A script fails on the calls it lists, counted from 0. -/
inductive Hook
  | parentless
  | attaching
  | scripted (style : HookStyle) (failing : List Nat) (calls : Nat)
  deriving DecidableEq, Repr

structure Factory where
  config : Config := {}
  systems : Systems := {}
  attached : List SystemId := []
  positions : Dict SystemId Nat := {}
  routes : Dict Tag SystemId := {}
  types : TypeIndex := .empty
  loader : Option Schema := none
  finalizer : Option Schema := none
  startup : Startup SystemId := {}
  cache : Cache
  blueprintNames : Dict Entity String := {}
  counter : Counter := {}
  /-- The entities to destroy, oldest first. -/
  queue : List Entity := []
  hook : Hook := .parentless
  /-- What was done, newest first. -/
  journal : List Entry := []

namespace Factory

def note (f : Factory) (n : Notice) : Factory := { f with journal := .notice n :: f.journal }

def noteAll (f : Factory) (ns : List Notice) : Factory := ns.foldl note f

def called (f : Factory) (c : Call) : Factory := { f with journal := .call c :: f.journal }

def tell (f : Factory) (c : Call) : Factory := { f.called c with systems := f.systems.told c }

def history (f : Factory) : List Entry := f.journal.reverse

def describe (f : Factory) : String :=
  let config := "FactoryConfig \x7b asset_root: " ++ Text.quoted f.config.root ++
    ", blueprint_suffix: " ++ Text.quoted f.config.suffix ++ " \x7d"
  "EntityFactory \x7b config: " ++ config ++
    s!", systems: {f.attached.length}, component_types: {f.routes.size}" ++
    s!", types: {f.types.size}, has_loader: {f.loader.isSome}" ++
    s!", has_finalizer: {f.finalizer.isSome}, named_entities: {f.blueprintNames.size}, .. \x7d"

end Factory
end EntityFoundry
