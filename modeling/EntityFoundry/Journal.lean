import EntityFoundry.Component.Kinds
import EntityFoundry.Entity
import EntityFoundry.Factory.Error
import EntityFoundry.Systems.Call
/-! What a factory does that can be seen from outside: the calls it makes to systems and hooks, and
the notices it gives. -/
namespace EntityFoundry

inductive Level
  | error
  | warn
  | info
  | debug
  deriving DecidableEq, Repr

def Level.detail : Level → Nat
  | .error => 1
  | .warn => 2
  | .info => 3
  | .debug => 4

inductive Milestone
  | starting (root : String)
  | assetWritten (filename : String) (size : Nat)
  | cartSpawned (cart : Entity) (wheels : Nat) (attached : Bool) (place : Option Transform)
  | allSpawned (entities : Nat)
  | cartDamaged (cart : Entity) (remaining max : Single)
  | finished (survivors entities : Nat)
  deriving Repr

inductive Notice
  | schema (w : Schema.Warning)
  | dependencyDeclared (system dependency : SystemId)
  | registered (system : SystemId)
  | assetLoaded (filename : String) (size : Nat)
  | systemRefused (e : FactoryError)
  | systemNotFound (system : SystemId)
  | systemAttached (system : SystemId)
  | tagReassigned (tag : Tag) (previous system : SystemId)
  | startedOutOfOrder (e : FactoryError)
  | initialized (systems tags : Nat)
  | typesListed (n : Nat)
  | loaderBeforeTypes
  | finalizerBeforeTypes
  | finalizerMissing
  | unrouted (e : Entity) (tag : Tag)
  | componentFailed (e : Entity) (tag : Tag) (error : ComponentError)
  | invalidPopulated
  | createdFromAsset (e : Entity) (name : String)
  | creationFailed (e : Entity) (name : String) (error : FactoryError)
  | childCreated (parent child : Entity)
  | childFailed (parent : Entity)
  | destroyed (e : Entity)
  | queueDestroyed (count : Nat)
  | spawned (e : Entity) (name : String) (health : Health)
  | placed (e : Entity) (transform : Transform)
  | childAttached (parent child : Entity)
  | milestone (m : Milestone)
  deriving Repr

inductive FieldValue
  | shown (s : String)
  | text (s : String)
  | count (n : Nat)
  | flag (b : Bool)
  | single (x : Single)
  deriving Repr

namespace Milestone

def message : Milestone → String
  | .starting _ => "entity factory demo starting"
  | .assetWritten .. => "wrote blueprint asset"
  | .cartSpawned .. => "spawned cart"
  | .allSpawned _ => "all carts spawned"
  | .cartDamaged .. => "cart took damage"
  | .finished .. => "entity factory demo finished"

def fields : Milestone → List (String × FieldValue)
  | .starting root => [("asset_root", .shown root)]
  | .assetWritten filename size => [("filename", .shown filename), ("size", .count size)]
  | .cartSpawned cart wheels attached place =>
    let position := match place with
      | some t => "Some(" ++ t.text ++ ")"
      | none => "None"
    [("cart", .shown cart.text), ("wheels", .count wheels), ("attached", .flag attached),
      ("position", .shown position)]
  | .allSpawned entities => [("entities", .count entities)]
  | .cartDamaged cart remaining max =>
    [("cart", .shown cart.text), ("remaining", .single remaining), ("max", .single max)]
  | .finished survivors entities => [("survivors", .count survivors), ("entities", .count entities)]

end Milestone

namespace Notice

def level : Notice → Level
  | .systemRefused _ | .startedOutOfOrder _ | .finalizerMissing => .error
  | .creationFailed _ _ error => if error.isConfigurationFault then .error else .warn
  | .schema _ | .systemNotFound _ | .tagReassigned .. | .loaderBeforeTypes
  | .finalizerBeforeTypes | .componentFailed .. | .invalidPopulated | .childFailed _ => .warn
  | .initialized .. | .spawned .. | .milestone _ => .info
  | _ => .debug

def message : Notice → String
  | .schema (.unknownIndex _) => "skipping component with unknown type index"
  | .schema (.withoutData _) => "skipping component without data"
  | .schema (.childrenDropped ..) =>
    "schema has no children field; child entities were not written"
  | .dependencyDeclared .. => "registered dependency"
  | .registered _ => "registered instance"
  | .assetLoaded .. => "loaded blueprint asset"
  | .systemRefused _ => "failed to create system"
  | .systemNotFound _ => "system not found in registry"
  | .systemAttached _ => "attached system"
  | .tagReassigned .. => "component type reassigned to another system"
  | .startedOutOfOrder _ => "systems were initialized out of dependency order"
  | .initialized .. => "entity factory initialized"
  | .typesListed _ => "built component type list"
  | .loaderBeforeTypes => "loader installed before the component type list was built"
  | .finalizerBeforeTypes => "finalizer installed before the component type list was built"
  | .finalizerMissing => "no blueprint finalizer configured"
  | .unrouted .. => "no system for component type, skipping"
  | .componentFailed .. => "component creation failed"
  | .invalidPopulated => "cannot populate the invalid entity"
  | .createdFromAsset .. => "created entity from blueprint"
  | .creationFailed .. => "failed to create entity from blueprint"
  | .childCreated .. => "created child entity"
  | .childFailed _ => "failed to create child entity"
  | .destroyed _ => "destroyed entity"
  | .queueDestroyed _ => "destroyed queued entities"
  | .spawned .. => "spawned with health"
  | .placed .. => "placed entity"
  | .childAttached .. => "attached child"
  | .milestone m => m.message

def fields (name : SystemId → String) : Notice → List (String × FieldValue)
  | .schema (.unknownIndex i) => [("index", .count i)]
  | .schema (.withoutData tag) => [("def_type", .shown tag.text)]
  | .schema (.childrenDropped expected written) =>
    [("expected", .count expected), ("written", .count written)]
  | .dependencyDeclared system dependency =>
    [("system", .shown (name system)), ("dependency", .shown (name dependency))]
  | .registered system => [("system", .shown (name system))]
  | .assetLoaded filename size => [("filename", .text filename), ("size", .count size)]
  | .systemRefused e => [("err", .shown (e.message name))]
  | .systemNotFound system => [("system", .shown (name system))]
  | .systemAttached system => [("system", .shown (name system))]
  | .tagReassigned tag previous system =>
    [("def_type", .shown tag.text), ("previous", .shown (name previous)),
      ("system", .shown (name system))]
  | .startedOutOfOrder e => [("err", .shown (e.message name))]
  | .initialized systems tags => [("systems", .count systems), ("component_types", .count tags)]
  | .typesListed n => [("types", .count n)]
  | .loaderBeforeTypes => []
  | .finalizerBeforeTypes => []
  | .finalizerMissing => []
  | .unrouted e tag => [("entity", .shown e.text), ("def_type", .shown tag.text)]
  | .componentFailed e tag error =>
    [("entity", .shown e.text), ("def_type", .shown tag.text), ("err", .shown error.message)]
  | .invalidPopulated => []
  | .createdFromAsset e asset => [("entity", .shown e.text), ("name", .text asset)]
  | .creationFailed e asset error =>
    [("entity", .shown e.text), ("name", .text asset), ("err", .shown (error.message name))]
  | .childCreated parent child => [("parent", .shown parent.text), ("child", .shown child.text)]
  | .childFailed parent => [("parent", .shown parent.text)]
  | .destroyed e => [("entity", .shown e.text)]
  | .queueDestroyed count => [("count", .count count)]
  | .spawned e label health =>
    [("entity", .shown e.text), ("name", .text label), ("current", .single health.current),
      ("max", .single health.max)]
  | .placed e t => [("entity", .shown e.text), ("position", .shown t.text)]
  | .childAttached parent child => [("parent", .shown parent.text), ("child", .shown child.text)]
  | .milestone m => m.fields

end Notice

inductive Entry
  | call (c : Call)
  | notice (n : Notice)
  deriving Repr

end EntityFoundry
