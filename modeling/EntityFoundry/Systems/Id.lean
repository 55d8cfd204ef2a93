/-! Which systems there are. Each owns the state of one or a few kinds of component. -/
namespace EntityFoundry

inductive SystemId
  | names
  | healths
  | transforms
  | hierarchy
  | plain
  | probe (label : String)
  deriving DecidableEq, Repr

def SystemId.path (home : String) : SystemId → String
  | .names => home ++ "::systems::NameSystem"
  | .healths => home ++ "::systems::HealthSystem"
  | .transforms => home ++ "::systems::TransformSystem"
  | .hierarchy => home ++ "::hierarchy::HierarchySystem"
  | .plain => home ++ "::Plain"
  | .probe label => home ++ "::" ++ label.capitalize

end EntityFoundry
