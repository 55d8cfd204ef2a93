import EntityFoundry.Schema.Table
/-! What stops loading and finalizing, and what they warn of and go on after. -/
namespace EntityFoundry

inductive SchemaError
  | decode (fault : Wire.Fault)
  | unlisted (tag : Tag)
  deriving DecidableEq, Repr

def SchemaError.message : SchemaError → String
  | .decode fault => "failed to decode entity definition: " ++ fault.message
  | .unlisted tag => s!"component type {tag.text} is not in the type list"

namespace Schema

inductive Warning
  | unknownIndex (index : Nat)
  | withoutData (tag : Tag)
  | childrenDropped (expected written : Nat)
  deriving DecidableEq, Repr

end Schema
end EntityFoundry
