import EntityFoundry.Assets.Path
/-! Where blueprint assets are found. -/
namespace EntityFoundry

structure Config where
  root : String := "."
  suffix : String := ".bin"
  deriving DecidableEq, Repr

namespace Config

def filename (c : Config) (name : String) : String := name ++ c.suffix

def same (c d : Config) : Bool := Path.same c.root d.root && c.suffix == d.suffix

end Config
end EntityFoundry
