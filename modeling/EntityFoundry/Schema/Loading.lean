import EntityFoundry.Blueprint
import EntityFoundry.Schema.Error
import EntityFoundry.Schema.TypeIndex
/-! From assets to blueprint trees. The tree has the shape of the table; a component table gives a
record, or a warning where its number names no type or where it has no payload. -/
namespace EntityFoundry

namespace ComponentTable

def record (types : TypeIndex) (c : ComponentTable) : Except Schema.Warning Record :=
  match types.get? c.index, c.data with
  | some tag, some data => .ok ⟨tag, data⟩
  | none, _ => .error (.unknownIndex c.index)
  | some tag, none => .error (.withoutData tag)

def record? (types : TypeIndex) (c : ComponentTable) : Option Record := (c.record types).toOption

def warning? (types : TypeIndex) (c : ComponentTable) : Option Schema.Warning :=
  match c.record types with
  | .ok _ => none
  | .error w => some w

end ComponentTable

namespace EntityTable

mutual

def tree (types : TypeIndex) : EntityTable → Tree
  | .node cs ts => .node (cs.filterMap (·.record? types)) (forest types ts)

def forest (types : TypeIndex) : List EntityTable → List Tree
  | [] => []
  | t :: ts => t.tree types :: forest types ts

end

mutual

def warnings (types : TypeIndex) : EntityTable → List Schema.Warning
  | .node cs ts => cs.filterMap (·.warning? types) ++ forestWarnings types ts

def forestWarnings (types : TypeIndex) : List EntityTable → List Schema.Warning
  | [] => []
  | t :: ts => t.warnings types ++ forestWarnings types ts

end

end EntityTable

namespace Schema

def load (schema : Schema) (types : TypeIndex) (data : Bytes) :
    Except SchemaError (Tree × List Warning) :=
  match schema.root data with
  | .error fault => .error (.decode fault)
  | .ok table => .ok (table.tree types, table.warnings types)

end Schema
end EntityFoundry
