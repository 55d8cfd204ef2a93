import EntityFoundry.Component.Record
import EntityFoundry.Entity
import EntityFoundry.Systems.Id
/-! The calls a factory makes to systems and hooks. -/
namespace EntityFoundry

/-- How a child of an entity is created by a scripted hook: as a whole tree, as an entity that is
populated afterwards, or without its own children. -/
inductive HookStyle
  | linking
  | populating
  | shallow
  deriving DecidableEq, Repr

inductive Call
  | start (system : SystemId) (registered : List SystemId)
  | create (system : SystemId) (e : Entity) (r : Record)
  | afterCreate (system : SystemId) (e : Entity) (r : Record)
  | destroy (system : SystemId) (e : Entity)
  | createChild (style : HookStyle) (parent child : Entity)
  deriving DecidableEq, Repr

def Call.system? : Call → Option SystemId
  | .start system _ => some system
  | .create system _ _ => some system
  | .afterCreate system _ _ => some system
  | .destroy system _ => some system
  | .createChild .. => none

end EntityFoundry
