import EntityFoundry.Proofs.Blueprint
import EntityFoundry.Proofs.Schema.ReadBack
import EntityFoundry.Schema.Finalizing
import EntityFoundry.Schema.Loading
/-! Trees through bytes and back. A tree of at most 511 levels whose types are listed and whose
lengths can be written is finalized without a warning, and the bytes load as the tree itself, its
payloads being views into them. -/
namespace EntityFoundry

structure Blueprint.Stored (types : TypeIndex) (b : Blueprint) (cs : List ComponentTable) :
    Prop where
  made : Schema.componentTables types b = .ok cs
  length : cs.length = b.length
  writable : ∀ c ∈ cs, c.Writable
  records : cs.filterMap (·.record? types) = b.map Record.viewed
  quiet : cs.filterMap (·.warning? types) = []

theorem Record.stored {types : TypeIndex} {r : Record} (listed : r.tag ∈ types.tags)
    (small : r.data.bytes.length < UInt32.size) :
    ∃ c, r.table types = .ok c ∧ c.Writable ∧ c.record types = .ok r.viewed := by
  obtain ⟨i, found⟩ := Option.isSome_iff_exists.mp (TypeIndex.indexOfMem.mpr listed)
  refine ⟨⟨i, some r.data.reborrow⟩, by simp only [table, found], ?_, ?_⟩
  · refine ⟨TypeIndex.indexOfBound found, ?_, ?_⟩ <;>
      (intro p same; cases same)
    · rfl
    · exact small
  · simp only [ComponentTable.record, TypeIndex.getIndexOf found, viewed]

theorem Blueprint.stored {types : TypeIndex} {b : Blueprint} (listed : ∀ r ∈ b, r.tag ∈ types.tags)
    (small : ∀ r ∈ b, r.data.bytes.length < UInt32.size) : ∃ cs, Stored types b cs := by
  induction b with
  | nil => exact ⟨[], rfl, rfl, by simp, rfl, rfl⟩
  | cons r b ih =>
    obtain ⟨c, made, writable, record⟩ := Record.stored (listed r (by simp)) (small r (by simp))
    obtain ⟨cs, rest⟩ := ih (fun s member => listed s (by simp [member]))
      (fun s member => small s (by simp [member]))
    have kept : c.record? types = some r.viewed := by
      simp only [ComponentTable.record?, record]; rfl
    have silent : c.warning? types = none := by simp only [ComponentTable.warning?, record]
    have tables := rest.made
    simp only [Schema.componentTables] at tables
    refine ⟨c :: cs, ?_, by simp [rest.length], ?_, ?_, ?_⟩
    · simp only [Schema.componentTables, List.mapM_cons, made, tables]; rfl
    · intro d member
      rcases List.mem_cons.mp member with rfl | later
      · exact writable
      · exact rest.writable d later
    · rw [List.filterMap_cons_some kept, rest.records, List.map_cons]
    · rw [List.filterMap_cons_none silent, rest.quiet]

theorem Record.listedOfTable {types : TypeIndex} {r : Record} {c : ComponentTable}
    (made : r.table types = .ok c) : r.tag ∈ types.tags := by
  unfold table at made
  split at made
  next i found => exact TypeIndex.indexOfMem.mp (by rw [found]; rfl)
  next => cases made

theorem Blueprint.listedOfTables {types : TypeIndex} {b : Blueprint} {cs : List ComponentTable}
    (made : Schema.componentTables types b = .ok cs) : ∀ r ∈ b, r.tag ∈ types.tags := by
  induction b generalizing cs with
  | nil => simp
  | cons r b ih =>
    obtain ⟨c, ds, first, rest, -⟩ := Wire.listParts made
    exact List.forall_mem_cons.mpr ⟨Record.listedOfTable first, ih rest⟩

namespace Tree

structure Stored (types : TypeIndex) (levels : Nat) (t : Tree) (u : EntityTable) : Prop where
  made : Schema.standard.tableOfTree types t = (.ok u, [])
  writable : u.Writable levels
  tree : u.tree types = t.viewed
  quiet : u.warnings types = []

structure ForestStored (types : TypeIndex) (levels : Nat) (ts : List Tree)
    (us : List EntityTable) : Prop where
  made : Schema.standard.tablesOfForest types ts = (.ok us, [])
  length : us.length = ts.length
  writable : ∀ u ∈ us, u.Writable levels
  forest : EntityTable.forest types us = forestViewed ts
  quiet : EntityTable.forestWarnings types us = []

theorem forestStored {types : TypeIndex} {levels : Nat} {ts : List Tree}
    (each : ∀ t ∈ ts, ∃ u, Stored types levels t u) : ∃ us, ForestStored types levels ts us := by
  induction ts with
  | nil => exact ⟨[], rfl, rfl, by simp, rfl, rfl⟩
  | cons t ts ih =>
    obtain ⟨u, first⟩ := each t (by simp)
    obtain ⟨us, rest⟩ := ih (fun s member => each s (by simp [member]))
    refine ⟨u :: us, ?_, by simp [rest.length], ?_, ?_, ?_⟩
    · rw [Schema.tablesOfForest, first.made, rest.made]; rfl
    · intro v member
      rcases List.mem_cons.mp member with rfl | later
      · exact first.writable
      · exact rest.writable v later
    · rw [EntityTable.forest, forestViewed, first.tree, rest.forest]
    · rw [EntityTable.forestWarnings, first.quiet, rest.quiet]; rfl

theorem stored {types : TypeIndex} {t : Tree} (listed : t.Listed types.tags) (sized : t.Sized)
    {levels : Nat} (enough : t.height ≤ levels) : ∃ u, Stored types levels t u := by
  induction t using byNodes generalizing levels with
  | node b ts ih =>
    obtain ⟨tags, listedBelow⟩ := listed
    obtain ⟨⟨fewRecords, fewChildren, small⟩, sizedBelow⟩ := sized
    rw [height] at enough
    obtain ⟨n, rfl⟩ : ∃ n, levels = n + 1 := ⟨levels - 1, by omega⟩
    obtain ⟨cs, here⟩ := Blueprint.stored tags small
    obtain ⟨us, below⟩ := forestStored fun t member =>
      ih t member (listedBelow t member) (sizedBelow t member)
        (Nat.le_trans (heightBelow member) (by omega : forestHeight ts ≤ n))
    have few : cs.length < UInt32.size := by rw [here.length]; exact fewRecords
    have few' : us.length < UInt32.size := by rw [below.length]; exact fewChildren
    refine ⟨.node cs us, ?_, .node few here.writable few' below.writable, ?_, ?_⟩
    · simp [Schema.tableOfTree, here.made, below.made, Schema.tableOf, EntityTable.children,
        Schema.dropWarning]
    · rw [EntityTable.tree, here.records, below.forest, viewed]
    · rw [EntityTable.warnings, here.quiet, below.quiet]; rfl

theorem forestTablesMade {schema : Schema} {types : TypeIndex} {ts : List Tree}
    {us : List EntityTable} (made : (schema.tablesOfForest types ts).1 = .ok us) :
    ∀ t ∈ ts, ∃ u, (schema.tableOfTree types t).1 = .ok u := by
  induction ts generalizing us with
  | nil => simp
  | cons t ts ih =>
    rw [Schema.tablesOfForest] at made
    split at made
    next => cases made
    next u ws first =>
      split at made
      next => cases made
      next vs zs rest =>
        exact List.forall_mem_cons.mpr ⟨⟨u, by rw [first]⟩, ih (by rw [rest])⟩

theorem listedOfTable {schema : Schema} {types : TypeIndex} {t : Tree} {u : EntityTable}
    (made : (schema.tableOfTree types t).1 = .ok u) : t.Listed types.tags := by
  induction t using byNodes generalizing u with
  | node b ts ih =>
    rw [Schema.tableOfTree] at made
    split at made
    next => cases made
    next cs tables =>
      split at made
      next => cases made
      next us ws forest =>
        refine .node (Blueprint.listedOfTables tables) fun t member => ?_
        obtain ⟨v, below⟩ := forestTablesMade (by rw [forest]) t member
        exact ih t member below

/-! Finalizing looks at the bytes of a payload, not at whose they are. -/

theorem componentTablesViewed (types : TypeIndex) (b : Blueprint) :
    Schema.componentTables types (b.map Record.viewed) = Schema.componentTables types b := by
  simp only [Schema.componentTables, List.mapM_map]
  rfl

theorem tableOfTreeViewed (schema : Schema) (types : TypeIndex) (t : Tree) :
    schema.tableOfTree types t.viewed = schema.tableOfTree types t := by
  induction t using byNodes with
  | node b ts ih =>
    have forest : schema.tablesOfForest types (forestViewed ts) =
        schema.tablesOfForest types ts := by
      induction ts with
      | nil => rfl
      | cons t ts ihs =>
        rw [forestViewed, Schema.tablesOfForest, Schema.tablesOfForest, ih t (by simp),
          ihs fun u member => ih u (by simp [member])]
    rw [viewed, Schema.tableOfTree, Schema.tableOfTree, componentTablesViewed, forest]

end Tree

namespace Schema

theorem loadWritable {levels : Nat} {u : EntityTable} (writable : u.Writable levels)
    (types : TypeIndex) :
    standard.load types (standard.encode u) =
      if u.containers ≤ Wire.maxOpen then .ok (u.tree types, u.warnings types)
      else .error (.decode .depthLimit) := by
  have root := EntityTable.rootOfEncode writable
  by_cases fits : u.containers ≤ Wire.maxOpen
  · rw [if_pos fits] at root ⊢
    simp only [load, root]
  · rw [if_neg fits] at root ⊢
    simp only [load, root]

theorem loadEncoded {types : TypeIndex} {levels : Nat} {t : Tree} {u : EntityTable}
    (stored : t.Stored types levels u) :
    standard.load types (standard.encode u) =
      if u.containers ≤ Wire.maxOpen then .ok (t.viewed, []) else .error (.decode .depthLimit) := by
  rw [loadWritable stored.writable, stored.tree, stored.quiet]

theorem loadStored {types : TypeIndex} {t : Tree} {u : EntityTable}
    (stored : t.Stored types 511 u) :
    standard.load types (standard.encode u) = .ok (t.viewed, []) :=
  (loadEncoded stored).trans (if_pos stored.writable.containersLe)

theorem finalizeStored {types : TypeIndex} {levels : Nat} {t : Tree} {u : EntityTable}
    (stored : t.Stored types levels u) :
    standard.finalizeTree types t = (.ok (standard.encode u), []) := by
  simp only [finalizeTree, stored.made]; rfl

theorem listedOfFinalized {schema : Schema} {types : TypeIndex} {t : Tree} {bytes : Bytes}
    (finalized : (schema.finalizeTree types t).1 = .ok bytes) : t.Listed types.tags := by
  cases made : (schema.tableOfTree types t).1 with
  | error e =>
    simp only [finalizeTree, made] at finalized
    cases finalized
  | ok u => exact Tree.listedOfTable made

theorem finalizeTreeViewed (schema : Schema) (types : TypeIndex) (t : Tree) :
    schema.finalizeTree types t.viewed = schema.finalizeTree types t := by
  simp only [finalizeTree, Tree.tableOfTreeViewed]

theorem finalizeLoadRoundTrip (types : TypeIndex) (t : Tree) (levels : t.height ≤ 511)
    (listed : t.Listed types.tags) (sized : t.Sized) :
    ∃ bytes, standard.finalizeTree types t = (.ok bytes, []) ∧
      standard.load types bytes = .ok (t.viewed, []) ∧
      standard.finalizeTree types t.viewed = (.ok bytes, []) := by
  obtain ⟨u, stored⟩ := t.stored listed sized levels
  have finalized := finalizeStored stored
  exact ⟨_, finalized, loadStored stored, (finalizeTreeViewed standard types t).trans finalized⟩

theorem listedTwiceRoundTrip :
    let types : TypeIndex := { tags := [⟨7⟩, ⟨7⟩, ⟨9⟩] }
    let t : Tree := .node [⟨⟨9⟩, .owned [0xc0]⟩, ⟨⟨7⟩, .owned []⟩]
      [.leaf [⟨⟨7⟩, .owned [1, 2]⟩], .leaf []]
    t.height ≤ 511 ∧ t.Listed types.tags ∧ t.Sized ∧
      ∃ bytes, standard.finalizeTree types t = (.ok bytes, []) ∧
        standard.load types bytes = .ok (t.viewed, []) ∧
        standard.finalizeTree types t.viewed = (.ok bytes, []) := by
  intro types t
  have levels : t.height ≤ 511 := by decide
  have listed : t.Listed types.tags := by
    refine .node (by decide) (List.forall_mem_cons.mpr ⟨.ofLeaf (by decide), ?_⟩)
    exact List.forall_mem_singleton.mpr (.ofLeaf (by decide))
  have sized : t.Sized := by
    refine .node (by decide) (List.forall_mem_cons.mpr ⟨.ofLeaf (by decide), ?_⟩)
    exact List.forall_mem_singleton.mpr (.ofLeaf (by decide))
  exact ⟨levels, listed, sized, finalizeLoadRoundTrip types t levels listed sized⟩

end Schema
end EntityFoundry
