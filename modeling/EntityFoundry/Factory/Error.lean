import EntityFoundry.Assets.Cache
import EntityFoundry.Schema.Error
import EntityFoundry.Systems.Id
import EntityFoundry.Systems.Registry
import EntityFoundry.Systems.Startup
/-! What can go wrong in a factory. A configuration fault is in the factory itself and not in the
data it was given. -/
namespace EntityFoundry

inductive FactoryError
  | missingLoader
  | missingFinalizer
  | invalidEntity
  | dependencies (violations : List (SystemId × SystemId))
  | alreadyRegistered (system : SystemId)
  | codec (e : SchemaError)
  | asset (e : AssetError)
  deriving DecidableEq, Repr

namespace FactoryError

def isConfigurationFault : FactoryError → Bool
  | .missingLoader | .missingFinalizer | .dependencies _ | .alreadyRegistered _ => true
  | .invalidEntity | .codec _ | .asset _ => false

def message (name : SystemId → String) : FactoryError → String
  | .missingLoader => "no blueprint loader configured"
  | .missingFinalizer => "no blueprint finalizer configured"
  | .invalidEntity => "cannot populate the invalid entity"
  | .dependencies violations => Startup.violationsMessage name violations
  | .alreadyRegistered system => Registry.heldMessage (name system)
  | .codec e => e.message
  | .asset e => e.message

end FactoryError
end EntityFoundry
