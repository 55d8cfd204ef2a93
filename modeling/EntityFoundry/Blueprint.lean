import EntityFoundry.Component.Record
/-! Blueprints and blueprint trees. A blueprint lists the component records of one entity in
order; a tree adds the blueprints of its children, in order. -/
namespace EntityFoundry

abbrev Blueprint := List Record

inductive Tree
  | node (blueprint : Blueprint) (children : List Tree)

namespace Tree

def blueprint : Tree → Blueprint
  | .node b _ => b

def children : Tree → List Tree
  | .node _ ts => ts

def leaf (b : Blueprint) : Tree := .node b []

instance : Inhabited Tree := ⟨leaf []⟩

mutual

def nodeCount : Tree → Nat
  | .node _ ts => 1 + forestCount ts

def forestCount : List Tree → Nat
  | [] => 0
  | t :: ts => t.nodeCount + forestCount ts

end

mutual

def height : Tree → Nat
  | .node _ ts => 1 + forestHeight ts

def forestHeight : List Tree → Nat
  | [] => 0
  | t :: ts => max t.height (forestHeight ts)

end

mutual

def preorder (depth : Nat) : Tree → List (Nat × Nat × Blueprint)
  | .node b ts => (depth, ts.length, b) :: forestPreorder (depth + 1) ts

def forestPreorder (depth : Nat) : List Tree → List (Nat × Nat × Blueprint)
  | [] => []
  | t :: ts => preorder depth t ++ forestPreorder depth ts

end

mutual

def same : Tree → Tree → Bool
  | .node b ts, .node c us => b == c && sameForest ts us

def sameForest : List Tree → List Tree → Bool
  | [], [] => true
  | t :: ts, u :: us => same t u && sameForest ts us
  | _, _ => false

end

instance : BEq Tree := ⟨same⟩

end Tree
end EntityFoundry
