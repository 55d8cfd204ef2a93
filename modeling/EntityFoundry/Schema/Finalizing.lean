import EntityFoundry.Blueprint
import EntityFoundry.Schema.Error
import EntityFoundry.Schema.TypeIndex
/-! From blueprint trees to assets. A type without a number stops finalizing at its first
record, a node's own records before its children; payloads are written as they are. A schema that
cannot hold a node's children drops them with a warning, after the warnings of the children. -/
namespace EntityFoundry

def Record.table (types : TypeIndex) (r : Record) : Except SchemaError ComponentTable :=
  match types.indexOf? r.tag with
  | some i => .ok ⟨i, some r.data.reborrow⟩
  | none => .error (.unlisted r.tag)

namespace Schema

def componentTables (types : TypeIndex) (b : Blueprint) :
    Except SchemaError (List ComponentTable) :=
  b.mapM (·.table types)

def dropWarning (expected written : Nat) : List Warning :=
  if written = expected then [] else [.childrenDropped expected written]

mutual

def tableOfTree (schema : Schema) (types : TypeIndex) :
    Tree → Except SchemaError EntityTable × List Warning
  | .node b ts =>
    match componentTables types b with
    | .error e => (.error e, [])
    | .ok cs =>
      match tablesOfForest schema types ts with
      | (.error e, ws) => (.error e, ws)
      | (.ok us, ws) =>
        let table := schema.tableOf cs us
        (.ok table, ws ++ dropWarning us.length table.children.length)

def tablesOfForest (schema : Schema) (types : TypeIndex) :
    List Tree → Except SchemaError (List EntityTable) × List Warning
  | [] => (.ok [], [])
  | t :: ts =>
    match tableOfTree schema types t with
    | (.error e, ws) => (.error e, ws)
    | (.ok u, ws) =>
      match tablesOfForest schema types ts with
      | (.error e, vs) => (.error e, ws ++ vs)
      | (.ok us, vs) => (.ok (u :: us), ws ++ vs)

end

def finalizeTree (schema : Schema) (types : TypeIndex) (t : Tree) :
    Except SchemaError Bytes × List Warning :=
  let (table, warnings) := schema.tableOfTree types t
  (table.map schema.encode, warnings)

def finalize (schema : Schema) (types : TypeIndex) (b : Blueprint) : Except SchemaError Bytes :=
  (componentTables types b).map fun cs => schema.encode (schema.tableOf cs [])

end Schema
end EntityFoundry
