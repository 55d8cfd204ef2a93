import EntityFoundry.Proofs.Schema.Loaded
/-! Limits of assets. A tree that was loaded has no more nodes, records and bytes of payload than
the bytes it came from, and at most 512 levels. A tree of 512 levels or more can be written all the
same, but reading it meets the depth limit before anything else can be wrong, whichever branch is
the deep one. -/
namespace EntityFoundry
open Wire

def Blueprint.volume (b : Blueprint) : Nat := b.length + (b.flatMap (·.data.bytes)).length

theorem Blueprint.volumeAppend (b c : Blueprint) : volume (b ++ c) = b.volume + c.volume := by
  simp only [volume, List.flatMap_append, List.length_append]
  omega

theorem Blueprint.volumeCons (r : Record) (b : Blueprint) :
    volume (r :: b) = 1 + r.data.bytes.length + b.volume := by
  simp only [volume, List.flatMap_cons, List.length_cons, List.length_append]
  omega

theorem ComponentTable.volumeRecords (types : TypeIndex) (cs : List ComponentTable) :
    Blueprint.volume (cs.filterMap (·.record? types)) ≤ weightOf weight cs := by
  induction cs with
  | nil => exact Nat.le_refl 0
  | cons c cs ih =>
    cases made : c.record? types with
    | none =>
      rw [List.filterMap_cons_none made]
      exact Nat.le_trans ih (Nat.le_add_left _ _)
    | some r =>
      rw [List.filterMap_cons_some made, Blueprint.volumeCons, weightOf, weight,
        (recordFound made).2, payloadLength]
      exact Nat.add_le_add_left ih _

namespace EntityTable

mutual

theorem volumeTree (types : TypeIndex) :
    ∀ u : EntityTable, (u.tree types).nodeCount + Blueprint.volume (u.tree types).records ≤ u.weight
  | .node cs us => by
    have own := ComponentTable.volumeRecords types cs
    have below := volumeForest types us
    rw [tree, Tree.nodeCount, Tree.records, Blueprint.volumeAppend, weight]
    omega

theorem volumeForest (types : TypeIndex) :
    ∀ us : List EntityTable, Tree.forestCount (forest types us) +
      Blueprint.volume (Tree.forestRecords (forest types us)) ≤ forestWeight us
  | [] => Nat.le_refl 0
  | u :: us => by
    have first := volumeTree types u
    have others := volumeForest types us
    rw [forest, Tree.forestCount, Tree.forestRecords, Blueprint.volumeAppend, forestWeight]
    omega

end

end EntityTable

namespace Schema

theorem loadedVolume (types : TypeIndex) (data : Bytes) (t : Tree) (ws : List Warning)
    (loaded : standard.load types data = .ok (t, ws)) :
    t.height ≤ 512 ∧
      t.nodeCount + t.records.length + (t.records.flatMap (·.data.bytes)).length ≤ data.length := by
  obtain ⟨u, root, rfl, -⟩ := loadRoot loaded
  obtain ⟨bounded, weight⟩ := rootBounded root
  have volume := EntityTable.volumeTree types u
  rw [Blueprint.volume] at volume
  exact ⟨bounded.height types, by omega⟩

theorem shortFormsVolume :
    let types : TypeIndex := { tags := [⟨7⟩] }
    let data : Bytes := [0x92, 0x91, 0x92, 0, 0xc4, 2, 7, 8, 0x92, 0xc4, 0, 0x90]
    let t : Tree := .node [⟨⟨7⟩, .view [7, 8]⟩] [.leaf [], .leaf []]
    standard.load types data = .ok (t, []) ∧ t.height ≤ 512 ∧
      t.nodeCount + t.records.length + (t.records.flatMap (·.data.bytes)).length ≤ data.length := by
  intro types data t
  have loaded : standard.load types data = .ok (t, []) := by rfl
  exact ⟨loaded, loadedVolume types data t [] loaded⟩

theorem loadTooDeep {types : TypeIndex} {levels : Nat} {t : Tree} {u : EntityTable}
    (stored : t.Stored types levels u) (deep : 512 ≤ t.height) (known : TypeIndex) :
    standard.load known (standard.encode u) = .error (.decode .depthLimit) := by
  have least := stored.containersAtLeast
  have full : ¬ u.containers ≤ maxOpen := by
    unfold maxOpen
    omega
  exact (loadWritable stored.writable known).trans (if_neg full)

end Schema
end EntityFoundry
