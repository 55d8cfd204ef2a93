import EntityFoundry.Blueprint
import EntityFoundry.Component.Kinds
/-! The cart of the demonstration: a body with four wheels. -/
namespace EntityFoundry.Demo

def componentNames : List String :=
  ["NONE", Kind.name.typeName, Kind.health.typeName, Kind.transform.typeName]

def part (name : String) (health x z : Int) : Blueprint :=
  let place : Transform := ⟨Single.ofInt x, Single.zero, Single.ofInt z⟩
  [.ofValue .name name, .ofValue .health (Health.full (Single.ofInt health)),
    .ofValue .transform place]

def wheelPlaces : List (Int × Int) := [(-1, -1), (1, -1), (-1, 1), (1, 1)]

def cart : Tree :=
  .node (part "cart" 100 0 0)
    (wheelPlaces.zipIdx.map fun ((x, z), i) => Tree.leaf (part s!"wheel-{i}" 20 x z))

end EntityFoundry.Demo
