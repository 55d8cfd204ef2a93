import EntityFoundry.Proofs.Component.Payloads
import EntityFoundry.Proofs.Schema.Layout
import EntityFoundry.Proofs.Wire.Standing
/-! Where the payloads of a loaded tree come from. Each stands in the bytes that were loaded, at a
place of its own and in one of its forms, at whatever level of the tree and in whatever order the
fields came: a view is a part of those bytes, and a copy was made from an array of its bytes. -/
namespace EntityFoundry
open Wire

namespace Payload

theorem targetShows (room : Nat) : (target room).Shows Form fun p => [p] := by
  refine ⟨fun bytes p rest read => ?_, fun _ _ refused => nomatch refused⟩
  obtain ⟨used, same, reads⟩ := targetDelimited room bytes p rest read
  exact ⟨used, same, .one (formOfRead reads)⟩

theorem Form.viewed {b : Bytes} {p : Payload} (form : Form b p) (borrowed : p.borrowed = true) :
    p.bytes <:+: b := by
  cases form with
  | binary spelled =>
    cases spelled with
    | @binary m => exact ((List.suffix_append _ _).trans (List.suffix_cons m _)).isInfix
  | text spelled =>
    cases spelled with
    | fixText => exact (List.suffix_cons _ _).isInfix
    | @text m => exact ((List.suffix_append _ _).trans (List.suffix_cons m _)).isInfix
  | array => cases borrowed

theorem Form.copied {b : Bytes} {p : Payload} (form : Form b p) (owned : p.borrowed = false) :
    ∃ head items, b = head ++ items.flatten ∧ Spells head (.array items.length) ∧
      List.Forall₂ SpellsByte items p.bytes := by
  cases form with
  | binary | text => cases owned
  | array spelled each => exact ⟨_, _, rfl, spelled, each⟩

end Payload

namespace ComponentTable

def payloads (c : ComponentTable) : List Payload := c.data.toList

def Partial.payloads (s : Partial) : List Payload := (s.data.getD none).toList

theorem targetShows (room : Nat) : (target room).Shows Payload.Form payloads := by
  refine Shape.targetShows Partial.payloads (fun slot member => ?_) rfl
    (fun absent s c complete => ?_) room
  · rcases List.mem_cons.mp member with rfl | later
    · exact Slot.ofTargetShows (Target.scalarShows _ _ _) _ _
        fun _ _ => (List.sublist_append_left _ _).subperm
    · obtain rfl := List.mem_singleton.mp later
      refine Slot.ofTargetShows (Target.optionalShows (Payload.targetShows _)) _ _ fun found s => ?_
      have same : found.toList.flatMap (fun p => [p]) = found.toList := List.flatMap_singleton' _
      rw [same]
      exact (List.sublist_append_right _ _).subperm
  · simp only [shape] at complete
    split at complete
    next =>
      cases complete
      exact .refl _
    next => cases complete

theorem recordsAmong (types : TypeIndex) (cs : List ComponentTable) :
    ((cs.filterMap (·.record? types)).map Record.data).Sublist (cs.flatMap payloads) := by
  induction cs with
  | nil => exact .slnil
  | cons c cs ih =>
    rw [List.flatMap_cons]
    cases made : c.record? types with
    | none =>
      rw [List.filterMap_cons_none made]
      exact ih.trans (List.sublist_append_right _ _)
    | some r =>
      rw [List.filterMap_cons_some made, payloads, (recordFound made).2]
      exact ih.cons_cons r.data

end ComponentTable

namespace EntityTable

def payloads (u : EntityTable) : List Payload := (layout.all u).flatMap ComponentTable.payloads

theorem payloadsNode (cs : List ComponentTable) (us : List EntityTable) :
    (node cs us).payloads = cs.flatMap ComponentTable.payloads ++ us.flatMap payloads := by
  rw [payloads, Layout.allNode, List.flatMap_append, List.flatMap_assoc]
  rfl

def Partial.payloads (s : Partial) : List Payload := s.table.payloads

theorem Partial.startBare : ({} : Partial).payloads = [] := payloadsNode [] []

section Slots
variable (room : Nat)

theorem componentsShow :
    (componentsSlot room).Shows Payload.Form Partial.payloads := by
  refine Slot.ofTargetShows (Target.listShows (ComponentTable.targetShows _) _) _ _ fun cs s => ?_
  simp only [Partial.payloads, Partial.table, payloadsNode, Option.getD_some]
  refine List.perm_append_comm.subperm.trans (List.Sublist.subperm ?_)
  exact (List.sublist_append_right _ _).append_right _

theorem childrenShow {child : Target EntityTable} (below : child.Shows Payload.Form payloads) :
    (childrenSlot room child).Shows Payload.Form Partial.payloads := by
  refine Slot.ofTargetShows (Target.listShows below _) _ _ fun us s => List.Sublist.subperm ?_
  simp only [Partial.payloads, Partial.table, payloadsNode, Option.getD_some]
  exact (List.sublist_append_left _ _).append_right _

theorem shapeShows {child : Target EntityTable} (below : child.Shows Payload.Form payloads) :
    ((shape room child).target room).Shows Payload.Form payloads := by
  refine Shape.targetShows Partial.payloads (fun slot member => ?_) Partial.startBare
    (fun absent s u complete => ?_) room
  · rcases List.mem_cons.mp member with rfl | later
    · exact componentsShow room
    · obtain rfl := List.mem_singleton.mp later
      exact childrenShow room below
  · cases complete
    exact .refl _

theorem targetShows : (target room).Shows Payload.Form payloads := by
  have none : noChild.Shows Payload.Form payloads :=
    ⟨.throw _, fun _ _ refused => nomatch refused⟩
  induction room using target.induct with
  | case1 => exact shapeShows 0 none
  | case2 => exact shapeShows 1 none
  | case3 room ih => exact shapeShows (room + 2) ih

theorem flatShows : ((flatShape room).target room).Shows Payload.Form payloads := by
  refine Shape.targetShows Partial.payloads (fun slot member => ?_) Partial.startBare
    (fun absent s u complete => ?_) room
  · obtain rfl := List.mem_singleton.mp member
    exact componentsShow room
  · simp only [flatShape] at complete
    split at complete
    next cs held =>
      cases complete
      rw [Partial.payloads, Partial.table, held, Option.getD_some, payloadsNode, payloadsNode]
      exact ((List.nil_sublist _).append_left _).subperm
    next => cases complete

end Slots

theorem recordsAmong (types : TypeIndex) (u : EntityTable) :
    ((u.tree types).records.map Record.data).Sublist u.payloads := by
  rw [← layoutTree, Layout.recordsAll]
  exact ComponentTable.recordsAmong types _

end EntityTable

namespace Schema

theorem targetShows (schema : Schema) :
    schema.target.Shows Payload.Form EntityTable.payloads := by
  cases schema with
  | standard => exact EntityTable.targetShows maxOpen
  | flat => exact EntityTable.flatShows maxOpen

theorem loadStands {schema : Schema} {types : TypeIndex} {data : Bytes} {t : Tree}
    {ws : List Warning} (loaded : schema.load types data = .ok (t, ws)) :
    Stand Payload.Form data (t.records.map Record.data) := by
  obtain ⟨u, root, rfl, -⟩ := loadRoot loaded
  obtain ⟨rest, read⟩ := rootRead root
  obtain ⟨used, rfl, stand⟩ := schema.targetShows.read data u rest read
  have among := (u.recordsAmong types).subperm
  have whole : Stand Payload.Form (used ++ rest) (u.payloads ++ []) := .append stand (.none rest)
  rw [List.append_nil] at whole
  exact whole.fewer among

/-- The payloads of a loaded tree stand in the bytes that were loaded, each at a place of its own. A
view is a part of those bytes, and a copy is there as an array of integers that are its bytes. -/
theorem loadedPayloadsStand (schema : Schema) (types : TypeIndex) (data : Bytes) (t : Tree)
    (ws : List Warning) (loaded : schema.load types data = .ok (t, ws)) :
    Stand Payload.Form data (t.records.map Record.data) ∧
    ∀ r ∈ t.records,
      (r.data.borrowed = true → r.data.bytes <:+: data) ∧
      (r.data.borrowed = false → ∃ head items, head ++ items.flatten <:+: data ∧
        Spells head (.array items.length) ∧ List.Forall₂ SpellsByte items r.data.bytes) := by
  have stand := loadStands loaded
  refine ⟨stand, fun r member => ?_⟩
  obtain ⟨piece, place, form⟩ := stand.each r.data (List.mem_map_of_mem member)
  refine ⟨fun borrowed => (form.viewed borrowed).trans place, fun owned => ?_⟩
  obtain ⟨head, items, rfl, spelled, each⟩ := form.copied owned
  exact ⟨head, items, place, spelled, each⟩

theorem viewAndCopyStand :
    let types : TypeIndex := { tags := [⟨7⟩, ⟨9⟩] }
    let data : Bytes := [0x82, 0xa8, 0x63, 0x68, 0x69, 0x6c, 0x64, 0x72, 0x65, 0x6e,
      0x91, 0x91, 0x91, 0x92, 0, 0xa1, 0xff,
      0, 0x91, 0x82, 1, 0x92, 5, 0xcc, 6, 0, 1]
    let t : Tree := .node [⟨⟨9⟩, .owned [5, 6]⟩] [.leaf [⟨⟨7⟩, .view [0xff]⟩]]
    standard.load types data = .ok (t, []) ∧
      Stand Payload.Form data [.owned [5, 6], .view [0xff]] ∧ [0xff] <:+: data ∧
      ∃ head items, head ++ items.flatten <:+: data ∧ Spells head (.array items.length) ∧
        List.Forall₂ SpellsByte items [5, 6] := by
  intro types data t
  have loaded : standard.load types data = .ok (t, []) := by rfl
  obtain ⟨stand, each⟩ := loadedPayloadsStand standard types data t [] loaded
  have viewed :=
    (each ⟨⟨7⟩, .view [0xff]⟩ (by simp [t, Tree.records, Tree.forestRecords, Tree.leaf])).1
  have copied := (each ⟨⟨9⟩, .owned [5, 6]⟩ (by simp [t, Tree.records])).2
  exact ⟨loaded, stand, viewed rfl, copied rfl⟩

end Schema
end EntityFoundry
