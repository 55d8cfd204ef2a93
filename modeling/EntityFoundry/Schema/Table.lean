import EntityFoundry.Component.Record
import EntityFoundry.Wire.Record
/-! The tables an entity definition is stored in. A component table holds a type's number and a
payload; an entity table holds component tables and, in the standard schema, the entity tables of
its children. Missing `components` and `children` count as empty, a missing payload as none. -/
namespace EntityFoundry
open Wire

structure ComponentTable where
  index : Nat
  data : Option Payload
  deriving Repr

instance : BEq ComponentTable := ⟨fun a b => a.index == b.index && a.data == b.data⟩

inductive EntityTable
  | node (components : List ComponentTable) (children : List EntityTable)

inductive Schema
  | standard
  | flat
  deriving DecidableEq, Repr

namespace ComponentTable

structure Partial where
  index : Option Nat := none
  data : Option (Option Payload) := none

def indexSlot : Slot Partial :=
  .ofTarget "def_type" Target.index (·.index) fun i s => { s with index := some i }

def dataSlot (room : Nat) : Slot Partial :=
  .ofTarget "def" (Target.optional (Payload.target (room - 1))) (·.data)
    fun d s => { s with data := some d }

def shape (room : Nat) : Shape Partial ComponentTable where
  name := "StandardComponentDef"
  slots := [indexSlot, dataSlot room]
  start := {}
  finish absent s :=
    match s.index with
    | some i => .ok ⟨i, s.data.getD none⟩
    | none => .error (absent "def_type")

def target (room : Nat) : Target ComponentTable := (shape room).target room

def put (c : ComponentTable) (rest : Bytes) : Bytes :=
  putMap 2 (putText "def_type" (putUnsigned c.index (putText "def"
    (match c.data with
    | some p => p.put rest
    | none => putNil rest))))

def putAll : List ComponentTable → Bytes → Bytes
  | [], rest => rest
  | c :: cs, rest => c.put (putAll cs rest)

end ComponentTable

namespace EntityTable

def components : EntityTable → List ComponentTable
  | .node cs _ => cs

def children : EntityTable → List EntityTable
  | .node _ ts => ts

instance : Inhabited EntityTable := ⟨.node [] []⟩

structure Partial where
  components : Option (List ComponentTable) := none
  children : Option (List EntityTable) := none

def componentsSlot (room : Nat) : Slot Partial :=
  .ofTarget "components" (Target.list (room - 1) (ComponentTable.target (room - 2)))
    (·.components) fun cs s => { s with components := some cs }

/-- `child` is the target of a child, inside two more containers. -/
def childrenSlot (room : Nat) (child : Target EntityTable) : Slot Partial :=
  .ofTarget "children" (Target.list (room - 1) child)
    (·.children) fun ts s => { s with children := some ts }

def shape (room : Nat) (child : Target EntityTable) : Shape Partial EntityTable where
  name := "StandardEntityDef"
  slots := [componentsSlot room, childrenSlot room child]
  start := {}
  finish _ s := .ok (.node (s.components.getD []) (s.children.getD []))

def noChild : Target EntityTable where
  expected := "struct StandardEntityDef"
  read := throw .depthLimit
  ofByte := Target.refuseByte "struct StandardEntityDef"

def target : (room : Nat) → Target EntityTable
  | 0 => (shape 0 noChild).target 0
  | 1 => (shape 1 noChild).target 1
  | room + 2 => (shape (room + 2) (target room)).target (room + 2)

def flatShape (room : Nat) : Shape Partial EntityTable where
  name := "FlatEntityDef"
  slots := [componentsSlot room]
  start := {}
  finish absent s :=
    match s.components with
    | some cs => .ok (.node cs [])
    | none => .error (absent "components")

mutual

def put : EntityTable → Bytes → Bytes
  | .node cs ts, rest =>
    putMap 2 (putText "components" (putArray cs.length (ComponentTable.putAll cs
      (putText "children" (putArray ts.length (putForest ts rest))))))

def putForest : List EntityTable → Bytes → Bytes
  | [], rest => rest
  | t :: ts, rest => put t (putForest ts rest)

end

def putFlat (t : EntityTable) (rest : Bytes) : Bytes :=
  putMap 1 (putText "components" (putArray t.components.length
    (ComponentTable.putAll t.components rest)))

mutual

def same : EntityTable → EntityTable → Bool
  | .node cs ts, .node ds us => cs == ds && sameForest ts us

def sameForest : List EntityTable → List EntityTable → Bool
  | [], [] => true
  | t :: ts, u :: us => same t u && sameForest ts us
  | _, _ => false

end

instance : BEq EntityTable := ⟨same⟩

mutual

def preorder (depth : Nat) : EntityTable → List (Nat × Nat × List ComponentTable)
  | .node cs ts => (depth, ts.length, cs) :: forestPreorder (depth + 1) ts

def forestPreorder (depth : Nat) : List EntityTable → List (Nat × Nat × List ComponentTable)
  | [] => []
  | t :: ts => preorder depth t ++ forestPreorder depth ts

end

end EntityTable

namespace Schema

def target : Schema → Target EntityTable
  | .standard => EntityTable.target maxOpen
  | .flat => (EntityTable.flatShape maxOpen).target maxOpen

def root (schema : Schema) (data : Bytes) : Except Fault EntityTable := schema.target.decode data

def encode : Schema → EntityTable → Bytes
  | .standard, t => t.put []
  | .flat, t => t.putFlat []

def tableOf : Schema → List ComponentTable → List EntityTable → EntityTable
  | .standard, cs, ts => .node cs ts
  | .flat, cs, _ => .node cs []

end Schema
end EntityFoundry
