import EntityFoundry.Proofs.Schema.Framing
/-! The flat and the standard schema on each other's assets. What either of them makes of a tree, the
flat schema loads as the root's blueprint without children: those of a standard asset are an entry
it does not know, and passes over. The standard schema finds no children in a flat asset. -/
namespace EntityFoundry
open Wire

namespace EntityTable
variable {cs : List ComponentTable} {ts : List EntityTable}

theorem findFlatComponents (room : Nat) :
    Slot.find (flatShape room).slots (.name (Text.Utf8.encode "components")) =
      some (componentsSlot room) := findFirst (componentsSlot room) _

theorem findFlatChildren (room : Nat) :
    Slot.find (flatShape room).slots (.name (Text.Utf8.encode "children")) = none := by
  have different : Text.Utf8.encode "components" ≠ Text.Utf8.encode "children" := by decide
  exact findLater (componentsSlot room) different []

theorem readFlatEntries {slots : List (Slot Partial)} {room : Nat}
    (known : Slot.find slots (.name (Text.Utf8.encode "components")) = some (componentsSlot room))
    (few : cs.length < UInt32.size) (writable : ∀ c ∈ cs, c.Writable) (rest : Bytes) :
    ReadsIf (room - 1 ≠ 0 ∧ ∀ c ∈ cs, room - 2 ≠ 0) (Slot.readEntries (room - 1) slots 1 {})
      (putText "components" (putArray cs.length (ComponentTable.putAll cs rest)))
      { components := some cs } rest := by
  have fields := readEntryKnown (s := {}) (readKeyText (s := "components") (by decide) _ _) known rfl
    ((readComponents few writable room _).map _) <|
    readEntriesDone (room - 1) slots { components := some cs } rest
  exact fields.congr (iff_of_eq (and_true _))

section Flat
variable (few : cs.length < UInt32.size) (writable : ∀ c ∈ cs, c.Writable)
include few writable

theorem readFlat {room : Nat} (roomy : 2 < room) (rest : Bytes) :
    ((flatShape room).target room).read ((node cs ts).putFlat rest) = .ok (.node cs [], rest) := by
  have fields := readFlatEntries (findFlatComponents room) few writable rest
  have read : ReadsIf _ ((flatShape room).target room).read _ _ _ :=
    readRecordMap (by decide) fields rfl
  exact read.reads ⟨by omega, by omega, fun _ _ => by omega⟩

theorem readFlatStandard {room : Nat} (roomy : 2 < room) (child : Target EntityTable)
    (rest : Bytes) :
    ((shape room child).target room).read ((node cs ts).putFlat rest) = .ok (.node cs [], rest) := by
  have fields := readFlatEntries (findComponents room child) few writable rest
  have read : ReadsIf _ ((shape room child).target room).read _ _ _ :=
    readRecordMap (by decide) fields rfl
  exact read.reads ⟨by omega, by omega, fun _ _ => by omega⟩

end Flat

theorem skipChildren {levels room : Nat} (few : ts.length < UInt32.size)
    (writable : ∀ t ∈ ts, t.Writable levels) (fits : ∀ t ∈ ts, t.containers ≤ room) (rest : Bytes) :
    skip (room + 1) (putArray ts.length (putForest ts rest)) = .ok ((), rest) := by
  have list : ReadsIf _ (Target.list (room + 1) (target room)).read _ _ _ := readListPut few
    (fun t member rest => readBack (writable t member) room rest) rest
  rw [← putForestFoldr] at list
  have takes : TakesItem (room + 1) (Target.list (room + 1) (target room)).read :=
    Target.listTakes (targetTakes room)
  exact takes _ ts rest (list.reads ⟨Nat.succ_ne_zero room, fits⟩)

theorem readStandardFlat {levels room : Nat} (writable : (node cs ts).Writable levels)
    (roomy : 2 < room) (fits : ∀ t ∈ ts, t.containers ≤ room - 2) (rest : Bytes) :
    ((flatShape room).target room).read ((node cs ts).put rest) = .ok (.node cs [], rest) := by
  cases writable with
  | node fewComponents components fewChildren children =>
    have skipped := skipChildren fewChildren children fits rest
    rw [show room - 2 + 1 = room - 1 by omega] at skipped
    have fields := readEntryKnown (s := {}) (readKeyText (s := "components") (by decide) _ _)
      (findFlatComponents room) rfl
      ((readComponents fewComponents components room _).map _) <|
      readEntryUnknown (readKeyText (s := "children") (by decide) _ _) (findFlatChildren room)
        (.ofOk skipped) <|
      readEntriesDone (room - 1) _ _ rest
    rw [put]
    have read : ReadsIf _ ((flatShape room).target room).read _ _ _ :=
      readRecordMap (by decide) fields rfl
    exact read.reads ⟨by omega, ⟨by omega, fun _ _ => by omega⟩, trivial, trivial⟩

end EntityTable

namespace Tree

theorem Sized.fewRecords {t : Tree} (sized : t.Sized) : t.blueprint.length < UInt32.size := by
  cases sized with
  | node here _ => exact here.1

theorem forestFlatMade {types : TypeIndex} {ts : List Tree}
    (each : ∀ t ∈ ts, ∃ u, (Schema.flat.tableOfTree types t).1 = .ok u) :
    ∃ us, (Schema.flat.tablesOfForest types ts).1 = .ok us := by
  induction ts with
  | nil => exact ⟨[], rfl⟩
  | cons t ts ih =>
    obtain ⟨u, first⟩ := each t (by simp)
    obtain ⟨us, rest⟩ := ih fun s member => each s (by simp [member])
    refine ⟨u :: us, ?_⟩
    rw [Schema.tablesOfForest]
    cases made : Schema.flat.tableOfTree types t with
    | mk result ws =>
      rw [made] at first
      obtain rfl := first
      cases others : Schema.flat.tablesOfForest types ts with
      | mk results vs =>
        rw [others] at rest
        obtain rfl := rest
        rfl

theorem flatStored {types : TypeIndex} {t : Tree} (listed : t.Listed types.tags)
    (sized : t.Sized) :
    ∃ cs, (Schema.flat.tableOfTree types t).1 = .ok (.node cs []) ∧
      Blueprint.Stored types t.blueprint cs := by
  induction t using byNodes with
  | node b ts ih =>
    obtain ⟨tags, listedBelow⟩ := listed
    obtain ⟨⟨-, -, small⟩, sizedBelow⟩ := sized
    obtain ⟨cs, here⟩ := Blueprint.stored tags small
    obtain ⟨us, below⟩ := forestFlatMade fun t member => by
      obtain ⟨ds, made, -⟩ := ih t member (listedBelow t member) (sizedBelow t member)
      exact ⟨_, made⟩
    refine ⟨cs, ?_, here⟩
    rw [Schema.tableOfTree, here.made]
    cases forest : Schema.flat.tablesOfForest types ts with
    | mk results ws =>
      rw [forest] at below
      obtain rfl := below
      rfl

end Tree

namespace Schema

theorem loadRootOnly {schema : Schema} {types : TypeIndex} {b : Blueprint}
    {cs : List ComponentTable} {data : Bytes}
    (records : cs.filterMap (·.record? types) = b.map Record.viewed)
    (quiet : cs.filterMap (·.warning? types) = [])
    (read : schema.target.read data = .ok (.node cs [], [])) :
    schema.load types data = .ok (.leaf (b.map Record.viewed), []) := by
  have root : schema.root data = .ok (.node cs []) := by
    change (schema.target.read data).map (·.1) = _
    rw [read]
    rfl
  simp only [load, root, EntityTable.tree, EntityTable.warnings, records, quiet]
  rfl

theorem loadStandardFlat {types : TypeIndex} {t : Tree} {u : EntityTable}
    (stored : t.Stored types 511 u) :
    flat.load types (standard.encode u) = .ok (.leaf (t.blueprint.map Record.viewed), []) := by
  obtain ⟨b, ts⟩ := t
  obtain ⟨cs, us⟩ := u
  have shown := stored.tree
  rw [EntityTable.tree, Tree.viewed, Tree.node.injEq] at shown
  have quiet := (List.append_eq_nil_iff.mp stored.quiet).1
  have fits : ∀ u ∈ us, u.containers ≤ Wire.maxOpen - 2 := by
    cases stored.writable with
    | node _ _ _ children => exact fun u member => (children u member).containersLe
  have read := EntityTable.readStandardFlat stored.writable (by decide : 2 < Wire.maxOpen) fits []
  exact loadRootOnly shown.1 quiet read

theorem flatStandardExchange (types : TypeIndex) (t : Tree) (listed : t.Listed types.tags)
    (sized : t.Sized) :
    let root : Tree := .leaf (t.blueprint.map Record.viewed)
    (∃ bytes, (flat.finalizeTree types t).1 = .ok bytes ∧
      flat.load types bytes = .ok (root, []) ∧ standard.load types bytes = .ok (root, [])) ∧
    (t.height ≤ 511 → ∃ bytes, standard.finalizeTree types t = (.ok bytes, []) ∧
      flat.load types bytes = .ok (root, [])) := by
  intro root
  refine ⟨?_, fun levels => ?_⟩
  · obtain ⟨cs, made, stored⟩ := Tree.flatStored listed sized
    have few : cs.length < UInt32.size := by
      rw [stored.length]
      exact sized.fewRecords
    have finalized : (flat.finalizeTree types t).1 = .ok (flat.encode (.node cs [])) := by
      simp only [finalizeTree, made]
      rfl
    have roomy : 2 < Wire.maxOpen := by decide
    have read : flat.target.read (flat.encode (.node cs [])) = .ok (.node cs [], []) :=
      EntityTable.readFlat few stored.writable roomy []
    have readStandard : standard.target.read (flat.encode (.node cs [])) = .ok (.node cs [], []) :=
      EntityTable.readFlatStandard few stored.writable roomy (EntityTable.target 1021) []
    exact ⟨_, finalized, loadRootOnly stored.records stored.quiet read,
      loadRootOnly stored.records stored.quiet readStandard⟩
  · obtain ⟨u, stored⟩ := t.stored listed sized levels
    exact ⟨_, finalizeStored stored, loadStandardFlat stored⟩

theorem cartExchange :
    let types : TypeIndex := { tags := [⟨7⟩, ⟨9⟩] }
    let t : Tree := .node [⟨⟨9⟩, .owned [1]⟩, ⟨⟨7⟩, .owned []⟩]
      [.node [⟨⟨7⟩, .owned [2]⟩] [.leaf []], .leaf []]
    let root : Tree := .leaf [⟨⟨9⟩, .view [1]⟩, ⟨⟨7⟩, .view []⟩]
    t.Listed types.tags ∧ t.Sized ∧ t.height = 3 ∧
      (∃ bytes, (flat.finalizeTree types t).1 = .ok bytes ∧
        flat.load types bytes = .ok (root, []) ∧ standard.load types bytes = .ok (root, [])) ∧
      ∃ bytes, standard.finalizeTree types t = (.ok bytes, []) ∧
        flat.load types bytes = .ok (root, []) := by
  intro types t root
  have listed : t.Listed types.tags := by
    refine .node (by decide) (List.forall_mem_cons.mpr ⟨.node (by decide) ?_, ?_⟩) <;>
      exact List.forall_mem_singleton.mpr (.ofLeaf (by decide))
  have sized : t.Sized := by
    refine .node (by decide) (List.forall_mem_cons.mpr ⟨.node (by decide) ?_, ?_⟩) <;>
      exact List.forall_mem_singleton.mpr (.ofLeaf (by decide))
  obtain ⟨exchanged, further⟩ := flatStandardExchange types t listed sized
  exact ⟨listed, sized, by decide, exchanged, further (by decide)⟩

end Schema
end EntityFoundry
