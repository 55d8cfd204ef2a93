import EntityFoundry.Dict
import EntityFoundry.Entity
/-! Links between parents and children. Every child knows its parent, and every parent its
children in the order they were attached. -/
namespace EntityFoundry

structure Links where
  parents : Dict Entity Entity := {}
  children : Dict Entity (List Entity) := {}
  deriving Repr

namespace Links

def parentOf (l : Links) (child : Entity) : Option Entity := l.parents.get? child

def childrenOf (l : Links) (parent : Entity) : List Entity := (l.children.get? parent).getD []

def attach (l : Links) (parent child : Entity) : Links where
  parents := l.parents.insert child parent
  children := l.children.insert parent (l.childrenOf parent ++ [child])

def leaveParent (l : Links) (e : Entity) : Links :=
  match l.parentOf e with
  | none => l
  | some parent =>
    { parents := l.parents.erase e
      children :=
        match l.children.get? parent with
        | none => l.children
        | some siblings => l.children.insert parent (siblings.filter fun s => decide (s ≠ e)) }

def detach (l : Links) (e : Entity) : Links :=
  let l := l.leaveParent e
  { parents := (l.childrenOf e).foldl Dict.erase l.parents
    children := l.children.erase e }

def orphans (l : Links) (e : Entity) : List Entity := (l.leaveParent e).childrenOf e

end Links
end EntityFoundry
