import EntityFoundry.Proofs.Schema.Framing
import EntityFoundry.Proofs.Wire.Yields
/-! What loads, from whatever bytes. A table has at most 512 levels, lengths below 2^32, and no more
nodes, component tables and bytes of payload than the bytes it was read from. So a tree that was
loaded can be finalized. A level that loads from one container is written in two, so the 512th is
too deep to be loaded again. -/
namespace EntityFoundry
open Wire

theorem Payload.targetGives (room : Nat) :
    (target room).Gives fun n p => p.bytes.length < UInt32.size ∧ p.bytes.length ≤ n := by
  refine ⟨?_, fun _ _ refused => nomatch refused⟩
  refine headYields.bind fun n head fits => ?_
  cases head with
  | binary raw => exact .pure ⟨fits.1, Nat.le_of_lt fits.2⟩
  | text raw =>
    dsimp only
    split
    next => exact .throw _
    next => exact .pure ⟨fits.1, Nat.le_of_lt fits.2⟩
  | array k =>
    dsimp only
    split
    next => exact .throw _
    next =>
      have item : Yields Target.u8.read fun n _ => True ∧ 1 ≤ n :=
        (Target.scalarGives _ _).read.mono fun _ _ positive => ⟨trivial, positive⟩
      refine (itemsYield item k).bind fun m xs found => .pure ?_
      obtain ⟨length, inside⟩ := found
      have few := inside.total
      rw [weightOfOnes] at few
      have short := fits.1
      simp only [owned, List.length_map]
      omega
  | scalar | map | ext => exact .throw _

namespace ComponentTable

theorem recordFound {types : TypeIndex} {c : ComponentTable} {r : Record}
    (made : c.record? types = some r) : types.get? c.index = some r.tag ∧ c.data = some r.data := by
  obtain ⟨i, data⟩ := c
  simp only [record?, record] at made
  cases named : types.get? i with
  | none =>
    rw [named] at made
    cases made
  | some tag =>
    cases data with
    | none =>
      rw [named] at made
      cases made
    | some p =>
      rw [named] at made
      cases made
      exact ⟨rfl, rfl⟩

def payloadLength : Option Payload → Nat
  | none => 0
  | some p => p.bytes.length

def weight (c : ComponentTable) : Nat := 1 + payloadLength c.data

namespace Partial

structure Short (n : Nat) (s : Partial) : Prop where
  narrow : payloadLength (s.data.getD none) < UInt32.size
  few : 1 + payloadLength (s.data.getD none) ≤ n

theorem Short.start : Short 1 {} := ⟨by decide, by decide⟩

theorem Short.mono (m n : Nat) (s : Partial) (more : m ≤ n) (short : s.Short m) : s.Short n :=
  ⟨short.narrow, Nat.le_trans short.few more⟩

theorem Short.index {n : Nat} {s : Partial} (short : s.Short n) (m i : Nat) :
    { s with index := some i }.Short (n + m) :=
  ⟨short.narrow, Nat.le_trans short.few (Nat.le_add_right n m)⟩

theorem Short.data {m n : Nat} {s : Partial} {found : Option Payload} (short : s.Short n)
    (given : ∀ p, found = some p → p.bytes.length < UInt32.size ∧ p.bytes.length ≤ m) :
    { s with data := some found }.Short (n + m) := by
  have positive : 0 < n := Nat.lt_of_lt_of_le (by omega) short.few
  cases found with
  | none => exact ⟨(by decide : payloadLength none < UInt32.size), show 1 + 0 ≤ n + m by omega⟩
  | some p =>
    obtain ⟨narrow, few⟩ := given p rfl
    exact ⟨narrow, show 1 + p.bytes.length ≤ n + m by omega⟩

end Partial

theorem targetGives (room : Nat) :
    (target room).Gives fun n c => payloadLength c.data < UInt32.size ∧ c.weight ≤ n := by
  refine Shape.targetGives Partial.Short.mono (fun slot member => ?_) Partial.Short.start
    (fun absent n s c short complete => ?_) room
  · rcases List.mem_cons.mp member with rfl | later
    · exact Slot.ofTargetKeeps (Target.scalarGives _ _) _ _ fun n m s i short _ => short.index m i
    · obtain rfl := List.mem_singleton.mp later
      exact Slot.ofTargetKeeps (Target.optionalGives (Payload.targetGives _)) _ _
        fun n m s found short given => short.data given
  · simp only [shape] at complete
    split at complete
    next =>
      cases complete
      exact ⟨short.narrow, short.few⟩
    next => cases complete

end ComponentTable

namespace EntityTable

inductive Bounded : (levels : Nat) → EntityTable → Prop
  | node {levels cs ts} (fewComponents : cs.length < UInt32.size)
      (components : ∀ c ∈ cs, ComponentTable.payloadLength c.data < UInt32.size)
      (fewChildren : ts.length < UInt32.size)
      (children : ∀ t ∈ ts, Bounded levels t) : Bounded (levels + 1) (.node cs ts)

mutual

def weight : EntityTable → Nat
  | .node cs ts => 1 + weightOf ComponentTable.weight cs + forestWeight ts

def forestWeight : List EntityTable → Nat
  | [] => 0
  | t :: ts => t.weight + forestWeight ts

end

theorem forestWeightOf (ts : List EntityTable) : forestWeight ts = weightOf weight ts := by
  induction ts with
  | nil => rfl
  | cons t ts ih => rw [forestWeight, ih, weightOf]

namespace Partial

def table (s : Partial) : EntityTable := .node (s.components.getD []) (s.children.getD [])

structure Bounded (levels n : Nat) (s : Partial) : Prop where
  table : s.table.Bounded (levels + 1)
  few : s.table.weight ≤ n

theorem Bounded.start (levels : Nat) : Bounded levels 1 {} := by
  have empty : (node [] []).Bounded (levels + 1) := .node (by decide) nofun (by decide) nofun
  exact ⟨empty, by decide⟩

theorem Bounded.mono (levels m n : Nat) (s : Partial) (more : m ≤ n)
    (bounded : s.Bounded levels m) : s.Bounded levels n := ⟨bounded.table, Nat.le_trans bounded.few more⟩

section Fields
variable {levels m n : Nat} {s : Partial} (bounded : s.Bounded levels n)
include bounded

theorem Bounded.components {cs : List ComponentTable} (few : cs.length < UInt32.size)
    (given : Within (fun c => ComponentTable.payloadLength c.data < UInt32.size)
      ComponentTable.weight m cs) : { s with components := some cs }.Bounded levels (n + m) := by
  obtain ⟨table, weight⟩ := bounded
  cases table with
  | node _ _ fewChildren children =>
    refine ⟨.node few given.each fewChildren children, ?_⟩
    have total := given.total
    simp only [Partial.table, EntityTable.weight, Option.getD_some] at weight ⊢
    omega

theorem Bounded.children {ts : List EntityTable} (few : ts.length < UInt32.size)
    (given : Within (·.Bounded levels) EntityTable.weight m ts) :
    { s with children := some ts }.Bounded levels (n + m) := by
  obtain ⟨table, weight⟩ := bounded
  cases table with
  | node fewComponents components _ _ =>
    refine ⟨.node fewComponents components few given.each, ?_⟩
    have total := given.total
    rw [← forestWeightOf] at total
    simp only [Partial.table, EntityTable.weight, Option.getD_some] at weight ⊢
    omega

end Fields
end Partial

theorem shapeGives {levels : Nat} {child : Target EntityTable}
    (gives : child.Gives fun n t => t.Bounded levels ∧ t.weight ≤ n) (room : Nat) :
    ((shape room child).target room).Gives fun n t => t.Bounded (levels + 1) ∧ t.weight ≤ n := by
  refine Shape.targetGives (Partial.Bounded.mono levels) (fun slot member => ?_) (.start levels)
    (fun absent n s t bounded complete => ?_) room
  · rcases List.mem_cons.mp member with rfl | later
    · exact Slot.ofTargetKeeps (Target.listGives (ComponentTable.targetGives _) _) _ _
        fun n m s cs bounded given => bounded.components given.1 given.2
    · obtain rfl := List.mem_singleton.mp later
      exact Slot.ofTargetKeeps (Target.listGives gives _) _ _
        fun n m s ts bounded given => bounded.children given.1 given.2
  · cases complete
    exact ⟨bounded.table, bounded.few⟩

theorem targetGives (room : Nat) :
    (target room).Gives fun n t => t.Bounded (room / 2 + 1) ∧ t.weight ≤ n := by
  have none : noChild.Gives fun n t => t.Bounded 0 ∧ t.weight ≤ n :=
    ⟨.throw _, fun _ _ refused => nomatch refused⟩
  induction room using target.induct with
  | case1 => exact shapeGives none 0
  | case2 => exact shapeGives none 1
  | case3 room ih =>
    have half : (room + 2) / 2 = room / 2 + 1 := by omega
    rw [half]
    exact shapeGives ih (room + 2)

/-! From tables to trees. -/

theorem forestMap (types : TypeIndex) (ts : List EntityTable) :
    forest types ts = ts.map (tree types) := by
  induction ts with
  | nil => rfl
  | cons t ts ih => rw [forest, ih, List.map_cons]

theorem Bounded.height {levels : Nat} {t : EntityTable} (bounded : t.Bounded levels)
    (types : TypeIndex) : (t.tree types).height ≤ levels := by
  induction bounded with
  | @node levels cs ts _ _ _ _ ih =>
    have below : Tree.forestHeight (forest types ts) ≤ levels := by
      rw [forestMap, Tree.forestHeightLe]
      exact List.forall_mem_map.mpr ih
    rw [tree, Tree.height]
    omega

theorem Bounded.sized {levels : Nat} {t : EntityTable} (bounded : t.Bounded levels)
    (types : TypeIndex) : (t.tree types).Sized := by
  induction bounded with
  | @node levels cs ts fewComponents components fewChildren _ ih =>
    rw [tree, forestMap]
    refine .node ⟨?_, ?_, fun r member => ?_⟩ (List.forall_mem_map.mpr ih)
    · exact Nat.lt_of_le_of_lt (List.length_filterMap_le _ cs) fewComponents
    · rw [List.length_map]
      exact fewChildren
    · obtain ⟨c, held, made⟩ := List.mem_filterMap.mp member
      have short := components c held
      rw [(ComponentTable.recordFound made).2] at short
      exact short

theorem Bounded.listed {levels : Nat} {t : EntityTable} (bounded : t.Bounded levels)
    (types : TypeIndex) : (t.tree types).Listed types.tags := by
  induction bounded with
  | @node levels cs ts _ _ _ _ ih =>
    rw [tree, forestMap]
    refine .node (fun r member => ?_) (List.forall_mem_map.mpr ih)
    obtain ⟨c, _, made⟩ := List.mem_filterMap.mp member
    exact List.mem_of_getElem? (ComponentTable.recordFound made).1

theorem containersAtLeast (types : TypeIndex) {levels : Nat} {t : EntityTable}
    (writable : t.Writable levels) : 2 * (t.tree types).height ≤ t.containers := by
  induction writable with
  | @node levels cs ts _ _ _ _ ih =>
    have below : Tree.forestHeight (forest types ts) ≤ forestContainers ts / 2 := by
      rw [forestMap, Tree.forestHeightLe]
      refine List.forall_mem_map.mpr fun t member => ?_
      have here := ih t member
      have inside := forestContainersLe.mp (Nat.le_refl (forestContainers ts)) t member
      omega
    rw [tree, Tree.height, containers]
    omega

end EntityTable

theorem Tree.Stored.containersAtLeast {types : TypeIndex} {levels : Nat} {t : Tree}
    {u : EntityTable} (stored : t.Stored types levels u) : 2 * t.height ≤ u.containers := by
  have least := EntityTable.containersAtLeast types stored.writable
  rwa [stored.tree, Tree.heightViewed] at least

namespace Schema

theorem rootBounded {data : Bytes} {u : EntityTable} (root : standard.root data = .ok u) :
    u.Bounded 512 ∧ u.weight ≤ data.length := by
  obtain ⟨rest, read⟩ := rootRead root
  obtain ⟨n, length, bounded, few⟩ := (EntityTable.targetGives maxOpen).read data u rest read
  exact ⟨bounded, by omega⟩

theorem loadBounded {types : TypeIndex} {data : Bytes} {t : Tree} {ws : List Warning}
    (loaded : standard.load types data = .ok (t, ws)) :
    ∃ u : EntityTable, u.Bounded 512 ∧ u.tree types = t := by
  obtain ⟨u, root, same, -⟩ := loadRoot loaded
  exact ⟨u, (rootBounded root).1, same⟩

theorem loadStoredHeight {types : TypeIndex} {levels : Nat} {t : Tree} {u : EntityTable}
    (stored : t.Stored types levels u) (enough : levels ≤ t.height) :
    standard.load types (standard.encode u) =
      if t.height ≤ 511 then .ok (t.viewed, []) else .error (.decode .depthLimit) := by
  have least := stored.containersAtLeast
  have most := stored.writable.containersLe
  have room : u.containers ≤ maxOpen ↔ t.height ≤ 511 := by
    unfold maxOpen
    omega
  rw [loadEncoded stored]
  simp only [room]

theorem loadFinalizeReload (types : TypeIndex) (data : Bytes) (t : Tree) (ws : List Warning)
    (loaded : standard.load types data = .ok (t, ws)) :
    t.height ≤ 512 ∧ ∃ bytes, standard.finalizeTree types t = (.ok bytes, []) ∧
      standard.load types bytes =
        if t.height ≤ 511 then .ok (t.viewed, []) else .error (.decode .depthLimit) := by
  obtain ⟨table, bounded, rfl⟩ := loadBounded loaded
  obtain ⟨u, stored⟩ := Tree.stored (bounded.listed types) (bounded.sized types) (Nat.le_refl _)
  exact ⟨bounded.height types, _, finalizeStored stored, loadStoredHeight stored (Nat.le_refl _)⟩

theorem deepestNotReloaded :
    let data : Bytes := (List.replicate 511 [0x92, 0x90, 0x91]).flatten ++ [0x90]
    ∃ t bytes, standard.load .empty data = .ok (t, []) ∧ t.height = 512 ∧
      standard.finalizeTree .empty t = (.ok bytes, []) ∧
      standard.load .empty bytes = .error (.decode .depthLimit) := by
  intro data
  have read : (standard.load .empty data).toOption.map (fun x => (x.1.height, x.2)) =
      some (512, []) := by decide +kernel
  cases loaded : standard.load .empty data with
  | error e =>
    rw [loaded] at read
    cases read
  | ok found =>
    obtain ⟨t, ws⟩ := found
    rw [loaded] at read
    obtain ⟨height, quiet⟩ := Prod.mk.inj (Option.some.inj read)
    obtain rfl : ws = [] := quiet
    obtain ⟨table, bounded, rfl⟩ := loadBounded loaded
    obtain ⟨u, stored⟩ := Tree.stored (bounded.listed _) (bounded.sized _) (Nat.le_refl _)
    have reloaded := loadStoredHeight stored (Nat.le_refl _)
    rw [if_neg (by rw [height]; decide)] at reloaded
    exact ⟨_, _, rfl, height, finalizeStored stored, reloaded⟩

theorem mixedFormsReload :
    let types : TypeIndex := { tags := [⟨7⟩, ⟨9⟩, ⟨7⟩] }
    let data : Bytes := [0x83, 0xa8, 0x63, 0x68, 0x69, 0x6c, 0x64, 0x72, 0x65, 0x6e,
      0x92, 0xc4, 0, 0x91, 0x91, 0x92, 2, 0xa1, 0xff,
      0xa1, 0x78, 0xc0,
      0, 0x92, 0x92, 1, 0x92, 5, 6, 0x92, 9, 0xc0]
    let t : Tree := .node [⟨⟨9⟩, .owned [5, 6]⟩] [.leaf [], .leaf [⟨⟨7⟩, .view [0xff]⟩]]
    standard.load types data = .ok (t, [.unknownIndex 9]) ∧
      ∃ bytes, standard.finalizeTree types t = (.ok bytes, []) ∧
        standard.load types bytes = .ok (t.viewed, []) := by
  intro types data t
  have loaded : standard.load types data = .ok (t, [.unknownIndex 9]) := by rfl
  obtain ⟨-, bytes, finalized, reloaded⟩ := loadFinalizeReload types data t _ loaded
  exact ⟨loaded, bytes, finalized, reloaded.trans (if_pos (by decide))⟩

end Schema
end EntityFoundry
