import EntityFoundry.Proofs.Blueprint
import EntityFoundry.Schema.Finalizing
/-! What finalizing fails for. It goes through the records of a tree in pre-order, whatever the
schema can hold of the tree, and the first record whose type has no number ends it; nothing else
does. An entity by itself is finalized as a tree without children. -/
namespace EntityFoundry

def endOf {ε α : Type} : Except ε α → Option ε
  | .ok _ => none
  | .error e => some e

theorem endOfSome {ε α : Type} {result : Except ε α} {e : ε} :
    endOf result = some e ↔ result = .error e := by
  cases result <;> simp [endOf]

theorem endOfMap {ε α β : Type} (f : α → β) (result : Except ε α) :
    endOf (result.map f) = endOf result := by
  cases result <;> rfl

def unlisted? (types : TypeIndex) (rs : List Record) : Option SchemaError :=
  (rs.find? fun r => r.tag ∉ types.tags).map fun r => .unlisted r.tag

theorem unlistedAppend (types : TypeIndex) (rs ss : List Record) :
    unlisted? types (rs ++ ss) = (unlisted? types rs).or (unlisted? types ss) := by
  rw [unlisted?, List.find?_append, Option.map_or]
  rfl

theorem unlistedFirst {types : TypeIndex} {rs : List Record} {e : SchemaError} :
    unlisted? types rs = some e ↔ ∃ before r after, rs = before ++ r :: after ∧
      (∀ s ∈ before, s.tag ∈ types.tags) ∧ r.tag ∉ types.tags ∧ e = .unlisted r.tag := by
  unfold unlisted?
  rw [Option.map_eq_some_iff]
  constructor
  · rintro ⟨r, found, rfl⟩
    obtain ⟨missing, before, after, split, listed⟩ := List.find?_eq_some_iff_append.mp found
    exact ⟨before, r, after, split, fun s member => by simpa using listed s member,
      by simpa using missing, rfl⟩
  · rintro ⟨before, r, after, split, listed, missing, rfl⟩
    refine ⟨r, List.find?_eq_some_iff_append.mpr ⟨by simpa using missing, before, after, split,
      fun s member => by simpa using listed s member⟩, rfl⟩

theorem Record.endOfTable (types : TypeIndex) (r : Record) :
    endOf (r.table types) = unlisted? types [r] := by
  unfold table
  cases found : types.indexOf? r.tag with
  | none =>
    have missing : r.tag ∉ types.tags := by
      rw [← TypeIndex.indexOfMem, found]
      exact Bool.false_ne_true
    simp [endOf, unlisted?, missing]
  | some i =>
    have listed : r.tag ∈ types.tags := TypeIndex.indexOfMem.mp (by rw [found]; rfl)
    simp [endOf, unlisted?, listed]

theorem Blueprint.endOfTables (types : TypeIndex) (b : Blueprint) :
    endOf (Schema.componentTables types b) = unlisted? types b := by
  induction b with
  | nil => rfl
  | cons r b ih =>
    have first := r.endOfTable types
    rw [← List.singleton_append, unlistedAppend, ← first, ← ih]
    unfold Schema.componentTables
    rw [List.singleton_append, List.mapM_cons]
    cases r.table types with
    | error e => rfl
    | ok c => cases b.mapM (·.table types) <;> rfl

namespace Tree
variable (schema : Schema) (types : TypeIndex)

theorem endOfForest {ts : List Tree}
    (each : ∀ t ∈ ts, endOf (schema.tableOfTree types t).1 = unlisted? types t.records) :
    endOf (schema.tablesOfForest types ts).1 = unlisted? types (forestRecords ts) := by
  induction ts with
  | nil => rfl
  | cons t ts ih =>
    obtain ⟨first, later⟩ := List.forall_mem_cons.mp each
    rw [forestRecords, unlistedAppend, ← first, ← ih later, Schema.tablesOfForest]
    obtain ⟨result, ws⟩ := schema.tableOfTree types t
    cases result with
    | error e => rfl
    | ok u =>
      obtain ⟨results, vs⟩ := schema.tablesOfForest types ts
      cases results <;> rfl

theorem endOfTable (t : Tree) :
    endOf (schema.tableOfTree types t).1 = unlisted? types t.records := by
  induction t using byNodes with
  | node b ts ih =>
    have below := endOfForest schema types ih
    rw [records, unlistedAppend, ← Blueprint.endOfTables, ← below, Schema.tableOfTree]
    cases Schema.componentTables types b with
    | error e => rfl
    | ok cs =>
      obtain ⟨results, ws⟩ := schema.tablesOfForest types ts
      cases results <;> rfl

end Tree

namespace Schema

theorem finalizeLeaf (schema : Schema) (types : TypeIndex) (b : Blueprint) :
    schema.finalizeTree types (.leaf b) = (schema.finalize types b, []) := by
  unfold finalizeTree finalize Tree.leaf
  rw [tableOfTree, tablesOfForest]
  cases componentTables types b with
  | error e => rfl
  | ok cs => cases schema <;> rfl

theorem finalizeEndsUnlisted (schema : Schema) (types : TypeIndex) (t : Tree) (b : Blueprint) :
    ((∃ e, (schema.finalizeTree types t).1 = .error e) ↔ ∃ r ∈ t.records, r.tag ∉ types.tags) ∧
    (∀ e, (schema.finalizeTree types t).1 = .error e ↔ ∃ before r after,
      t.records = before ++ r :: after ∧ (∀ s ∈ before, s.tag ∈ types.tags) ∧
        r.tag ∉ types.tags ∧ e = .unlisted r.tag) ∧
    schema.finalizeTree types (.leaf b) = (schema.finalize types b, []) := by
  have ends : endOf (schema.finalizeTree types t).1 = unlisted? types t.records :=
    (endOfMap schema.encode _).trans (t.endOfTable schema types)
  refine ⟨?_, fun e => ?_, finalizeLeaf schema types b⟩
  · simp only [← endOfSome, ends, unlisted?, ← Option.isSome_iff_exists, Option.isSome_map,
      List.find?_isSome, decide_eq_true_eq]
  · rw [← endOfSome, ends, unlistedFirst]

theorem droppedChildEndsFlat :
    let types : TypeIndex := { tags := [⟨7⟩, ⟨9⟩] }
    let t : Tree := .node [⟨⟨9⟩, .owned [1]⟩]
      [.node [⟨⟨7⟩, .owned []⟩, ⟨⟨8⟩, .owned [2]⟩] [.leaf [⟨⟨5⟩, .owned []⟩]],
        .leaf [⟨⟨6⟩, .owned []⟩]]
    (flat.finalizeTree types t).1 = .error (.unlisted ⟨8⟩) ∧
      (flat.finalizeTree types (.leaf t.blueprint)).1 = flat.finalize types t.blueprint := by
  intro types t
  obtain ⟨-, first, single⟩ := finalizeEndsUnlisted flat types t t.blueprint
  refine ⟨(first _).mpr ⟨[⟨⟨9⟩, .owned [1]⟩, ⟨⟨7⟩, .owned []⟩], ⟨⟨8⟩, .owned [2]⟩,
    [⟨⟨5⟩, .owned []⟩, ⟨⟨6⟩, .owned []⟩], rfl, by decide, by decide, rfl⟩, ?_⟩
  rw [single]

end Schema
end EntityFoundry
