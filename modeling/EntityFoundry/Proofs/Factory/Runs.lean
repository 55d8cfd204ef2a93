import EntityFoundry.Proofs.Factory.Moves
/-! Runs of a factory: operations one after another, in any order. An operation is what can be asked
of a factory or of the handles to its queue, its counter and its cache; its answer is dropped. -/
namespace EntityFoundry.Factory

inductive Op
  | registerSystem (s : SystemId) (p : Probe)
  | createSystem (s : SystemId) (p : Probe)
  | attachRegistered (s : SystemId)
  | registerTag (s : SystemId) (tag : Tag)
  | start
  | startWithNames (names : List String)
  | startLoader (schema : Schema)
  | startFinalizer (schema : Schema)
  | startSchema (schema : Schema) (names : List String)
  | setLoader (schema : Schema)
  | setFinalizer (schema : Schema)
  | setHook (hook : Hook)
  | create
  | issueMany (n : Nat)
  | createNamed (name : String)
  | createWithBlueprint (b : Blueprint)
  | createWithTree (t : Tree)
  | populateNamed (e : Entity) (name : String)
  | populateWithTree (e : Entity) (t : Tree)
  | createFromData (data : Bytes) (name : String)
  | tryCreateFromData (data : Bytes) (name : String)
  | destroy (e : Entity)
  | queueForDestruction (e : Entity)
  | destroyQueued
  | drainQueue
  | blueprintAsset (name : String)
  | setCache (cache : Cache)
  | finalize (b : Blueprint)
  | finalizeTree (t : Tree)
  | damage (e : Entity) (amount : Single)

def damage (f : Factory) (e : Entity) (amount : Single) : Factory :=
  match f.systems.damage e amount with
  | some (_, systems) => { f with systems := systems }
  | none => f

def apply (f : Factory) : Op → Factory
  | .registerSystem s p => (f.registerSystem s (s.fresh p)).2
  | .createSystem s p => (f.createSystem s (s.fresh p)).2
  | .attachRegistered s => (f.attachRegistered s).2
  | .registerTag s tag => f.registerTag s tag
  | .start => f.start.2
  | .startWithNames names => (f.startWithNames names).2
  | .startLoader schema => f.startLoader schema
  | .startFinalizer schema => f.startFinalizer schema
  | .startSchema schema names => (f.startSchema schema names).2
  | .setLoader schema => f.setLoader schema
  | .setFinalizer schema => f.setFinalizer schema
  | .setHook hook => f.setHook hook
  | .create => f.create.2
  | .issueMany n => { f with counter := (f.counter.issueMany n).2 }
  | .createNamed name => (f.createNamed name).2
  | .createWithBlueprint b => (f.createWithBlueprint b).2
  | .createWithTree t => (f.createWithTree t).2
  | .populateNamed e name => (f.populateNamed e name).2
  | .populateWithTree e t => (f.populateWithTree e t).2
  | .createFromData data name => (f.createFromData data name).2
  | .tryCreateFromData data name => (f.tryCreateFromData data name).2
  | .destroy e => f.destroy e
  | .queueForDestruction e => f.queueForDestruction e
  | .destroyQueued => f.destroyQueued
  | .drainQueue => { f with queue := [] }
  | .blueprintAsset name => (f.blueprintAsset name).2
  | .setCache cache => { f with cache := cache }
  | .finalize b => (f.finalize b).2
  | .finalizeTree t => (f.finalizeTree t).2
  | .damage e amount => f.damage e amount

def run (f : Factory) (ops : List Op) : Factory := ops.foldl apply f

def initial (config : Config) (source : AssetSource) : Factory :=
  { config := config, cache := { source := source } }

def logged {α : Type} (read : Factory → Op → List α) : List Op → Factory → List α
  | [], _ => []
  | op :: ops, f => read f op ++ logged read ops (f.apply op)

def Op.arranges : Op → Bool
  | .create | .issueMany _ | .createNamed _ | .createWithBlueprint _ | .createWithTree _ => false
  | .populateNamed .. | .populateWithTree .. | .createFromData .. | .tryCreateFromData .. => false
  | .destroy _ | .queueForDestruction _ | .destroyQueued | .drainQueue => false
  | _ => true

namespace Arranges
variable {offered : Entity → Prop}

theorem damage (f : Factory) (e : Entity) (amount : Single) : Arranges offered f (f.damage e amount) := by
  unfold Factory.damage
  cases hurt : f.systems.damage e amount with
  | none => exact .refl f
  | some result => exact damaged hurt

theorem apply (f : Factory) {op : Op} (arranging : op.arranges = true) :
    Arranges offered f (f.apply op) := by
  cases op with
  | registerSystem s p => exact registerSystem f s p
  | createSystem s p => exact createSystem f s p
  | attachRegistered s => exact attachRegistered f s
  | registerTag s tag => exact registerTag f s tag
  | start => exact start f
  | startWithNames names => exact startWithNames f names
  | startLoader schema => exact startLoader f schema
  | startFinalizer schema => exact startFinalizer f schema
  | startSchema schema names => exact startSchema f schema names
  | setLoader schema => exact setLoader f schema
  | setFinalizer schema => exact setFinalizer f schema
  | setHook hook => exact rehook f hook
  | blueprintAsset name => exact blueprintAsset f name
  | setCache cache => exact recache f cache
  | finalize b => exact finalize f b
  | finalizeTree t => exact finalizeTree f t
  | damage e amount => exact damage f e amount
  | _ => cases arranging

end Arranges

namespace Moves
variable {f g : Factory}

theorem apply (f : Factory) (op : Op) : Moves f (f.apply op) := by
  cases op with
  | create => exact create f
  | issueMany n => exact issue f n
  | createNamed name => exact createNamed f name
  | createWithBlueprint b => exact createWithBlueprint f b
  | createWithTree t => exact createWithTree f t
  | populateNamed e name => exact populateNamed f e name
  | populateWithTree e t => exact populateWithTree f e t
  | createFromData data name => exact createFromData f data name
  | tryCreateFromData data name => exact tryCreateFromData f data name
  | destroy e => exact destroy f e
  | queueForDestruction e => exact queued f _
  | destroyQueued => exact destroyQueued f
  | drainQueue => exact queued f []
  | _ => exact (Arranges.apply f rfl).moves

theorem run (f : Factory) (ops : List Op) : Moves f (f.run ops) := fold apply ops f

theorem issued (moves : Moves f g) : f.counter.issued ≤ g.counter.issued := by
  induction moves with
  | trans first second ihf ihs => exact Nat.le_trans ihf ihs
  | issue f n => exact Nat.le_add_right _ n
  | @child f g parent inside ih =>
    rw [attachCounter]
    exact Nat.le_trans (Nat.le_succ _) ih
  | @placed f s held =>
    unfold place
    split <;> exact Nat.le_refl _
  | refl | note | called | tell | named | queued | registered | damaged | routed | adjusted =>
    exact Nat.le_refl _

end Moves
end EntityFoundry.Factory
