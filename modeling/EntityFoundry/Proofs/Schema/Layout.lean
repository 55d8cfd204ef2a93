import EntityFoundry.Journal
import EntityFoundry.Proofs.Schema.Loaded
import Mathlib.Data.List.Forall2
/-! Tables of any layout, and what loading makes of them. A schema shows the component tables of an
entity and the tables of its children, and of a component its number and its payload; the loader
sees nothing else. Every component table gives the record it stands for or one warning. -/
namespace EntityFoundry
open Schema (Warning)

structure Layout (ε γ : Type) where
  components : ε → List γ
  children : ε → List ε
  index : γ → Nat
  data : γ → Option Payload
  depth : ε → Nat
  deeper : ∀ e, ∀ c ∈ children e, depth c < depth e

namespace Layout
variable {ε γ : Type} (l : Layout ε γ)

@[elab_as_elim]
theorem byTables {motive : ε → Prop} (table : ∀ e, (∀ c ∈ l.children e, motive c) → motive e)
    (e : ε) : motive e :=
  table e fun c _ => byTables table c
termination_by l.depth e
decreasing_by exact l.deeper e c (by assumption)

def all (e : ε) : List γ := l.components e ++ (l.children e).attach.flatMap fun c => all c.1
termination_by l.depth e
decreasing_by exact l.deeper e c.1 c.2

theorem allNode (e : ε) : l.all e = l.components e ++ (l.children e).flatMap l.all := by
  rw [all]
  simp

variable (types : TypeIndex)

def record? (c : γ) : Option Record := (ComponentTable.mk (l.index c) (l.data c)).record? types

def warning? (c : γ) : Option Warning := (ComponentTable.mk (l.index c) (l.data c)).warning? types

def tree (e : ε) : Tree :=
  .node ((l.components e).filterMap (l.record? types))
    ((l.children e).attach.map fun c => tree c.1)
termination_by l.depth e
decreasing_by exact l.deeper e c.1 c.2

def warnings (e : ε) : List Warning :=
  (l.components e).filterMap (l.warning? types) ++
    (l.children e).attach.flatMap fun c => warnings c.1
termination_by l.depth e
decreasing_by exact l.deeper e c.1 c.2

theorem treeNode (e : ε) :
    l.tree types e =
      .node ((l.components e).filterMap (l.record? types))
        ((l.children e).map (l.tree types)) := by
  rw [tree]
  simp

theorem warningsNode (e : ε) :
    l.warnings types e =
      (l.components e).filterMap (l.warning? types) ++
        (l.children e).flatMap (l.warnings types) := by
  rw [warnings]
  simp

/-! What is asked of loading, told from the tables alone. -/

def keeps (c : γ) : Bool := decide (l.index c < types.size) && (l.data c).isSome

def Gives (c : γ) (r : Record) : Prop :=
  types.get? (l.index c) = some r.tag ∧ l.data c = some r.data

def Warns (c : γ) (w : Warning) : Prop :=
  if types.size ≤ l.index c then
    w = .unknownIndex (l.index c) ∧
      (Notice.schema w).message = "skipping component with unknown type index"
  else
    (∃ tag, types.get? (l.index c) = some tag ∧ w = .withoutData tag) ∧
      (Notice.schema w).message = "skipping component without data"

inductive Loads : ε → Tree → Prop
  | node {e : ε} {b : Blueprint} {ts : List Tree}
      (records : List.Forall₂ (l.Gives types) ((l.components e).filter (l.keeps types)) b)
      (children : List.Forall₂ Loads (l.children e) ts) : Loads e (.node b ts)

structure Accounted (e : ε) (t : Tree) (ws : List Warning) : Prop where
  loads : l.Loads types e t
  warnings : List.Forall₂ (l.Warns types) ((l.all e).filter (! l.keeps types ·)) ws
  count : ws.length + t.records.length = (l.all e).length

/-! One component table, then a list of them. -/

theorem recordOrWarning (c : γ) :
    (l.keeps types c = true ∧ l.warning? types c = none ∧
      ∃ r, l.record? types c = some r ∧ l.Gives types c r) ∨
    (l.keeps types c = false ∧ l.record? types c = none ∧
      ∃ w, l.warning? types c = some w ∧ l.Warns types c w) := by
  unfold keeps Gives Warns record? warning? ComponentTable.record? ComponentTable.warning?
    ComponentTable.record TypeIndex.size TypeIndex.get?
  by_cases inside : l.index c < types.tags.length
  · rw [List.getElem?_eq_getElem inside, decide_eq_true inside]
    cases held : l.data c with
    | some p => exact .inl ⟨rfl, rfl, _, rfl, rfl, rfl⟩
    | none =>
      refine .inr ⟨rfl, rfl, _, rfl, ?_⟩
      rw [if_neg (Nat.not_le.mpr inside)]
      exact ⟨⟨_, rfl, rfl⟩, rfl⟩
  · rw [List.getElem?_eq_none (Nat.not_lt.mp inside), decide_eq_false inside]
    refine .inr ⟨rfl, rfl, _, rfl, ?_⟩
    rw [if_pos (Nat.not_lt.mp inside)]
    exact ⟨rfl, rfl⟩

theorem recordsGiven (cs : List γ) :
    List.Forall₂ (l.Gives types) (cs.filter (l.keeps types)) (cs.filterMap (l.record? types)) := by
  induction cs with
  | nil => exact .nil
  | cons c cs ih =>
    rw [List.filter_cons]
    rcases l.recordOrWarning types c with ⟨kept, -, r, made, gives⟩ | ⟨skipped, none, -⟩
    · rw [if_pos kept, List.filterMap_cons_some made]
      exact .cons gives ih
    · rw [if_neg (by simp [skipped]), List.filterMap_cons_none none]
      exact ih

theorem warningsGiven (cs : List γ) :
    List.Forall₂ (l.Warns types) (cs.filter (! l.keeps types ·))
      (cs.filterMap (l.warning? types)) := by
  induction cs with
  | nil => exact .nil
  | cons c cs ih =>
    rw [List.filter_cons]
    rcases l.recordOrWarning types c with ⟨kept, none, -⟩ | ⟨skipped, -, w, made, warns⟩
    · rw [if_neg (by simp [kept]), List.filterMap_cons_none none]
      exact ih
    · rw [if_pos (by simp [skipped]), List.filterMap_cons_some made]
      exact .cons warns ih

theorem eachGiven (cs : List γ) :
    (cs.filterMap (l.warning? types)).length + (cs.filterMap (l.record? types)).length =
      cs.length := by
  rw [← (l.warningsGiven types cs).length_eq, ← (l.recordsGiven types cs).length_eq, Nat.add_comm,
    ← List.length_eq_length_filter_add]

/-! Whole tables. -/

theorem treeLoads (e : ε) : l.Loads types e (l.tree types e) := by
  induction e using l.byTables with
  | table e ih =>
    rw [treeNode]
    refine .node (l.recordsGiven types _) (List.forall₂_map_right_iff.mpr ?_)
    exact List.forall₂_same.mpr ih

theorem warningsAll (e : ε) : l.warnings types e = (l.all e).filterMap (l.warning? types) := by
  induction e using l.byTables with
  | table e ih =>
    rw [warningsNode, allNode, List.filterMap_append, List.filterMap_flatMap, List.flatMap_congr ih]

theorem recordsAll (e : ε) :
    (l.tree types e).records = (l.all e).filterMap (l.record? types) := by
  induction e using l.byTables with
  | table e ih =>
    have forest (ts : List Tree) : Tree.forestRecords ts = ts.flatMap Tree.records := by
      induction ts with
      | nil => rfl
      | cons t ts ih => rw [Tree.forestRecords, ih, List.flatMap_cons]
    rw [treeNode, Tree.records, allNode, List.filterMap_append, List.filterMap_flatMap, forest,
      List.flatMap_map, List.flatMap_congr ih]

theorem accounted (e : ε) : l.Accounted types e (l.tree types e) (l.warnings types e) where
  loads := l.treeLoads types e
  warnings := l.warningsAll types e ▸ l.warningsGiven types _
  count := by rw [warningsAll, recordsAll, eachGiven]

end Layout

/-! The tables of the program. -/

namespace EntityTable

theorem containersDeeper (u : EntityTable) : ∀ c ∈ u.children, c.containers < u.containers := by
  intro c member
  obtain ⟨cs, us⟩ := u
  have inside := forestContainersLe.mp (Nat.le_refl (forestContainers us)) c member
  rw [containers]
  omega

def layout : Layout EntityTable ComponentTable where
  components := components
  children := children
  index := ComponentTable.index
  data := ComponentTable.data
  depth := containers
  deeper := containersDeeper

variable (types : TypeIndex)

theorem layoutTree (u : EntityTable) : layout.tree types u = u.tree types := by
  induction u using layout.byTables with
  | table u ih =>
    obtain ⟨cs, us⟩ := u
    rw [Layout.treeNode, List.map_congr_left ih, tree, forestMap]
    rfl

theorem forestWarningsMap (us : List EntityTable) :
    forestWarnings types us = us.flatMap (warnings types) := by
  induction us with
  | nil => rfl
  | cons u us ih => rw [forestWarnings, ih, List.flatMap_cons]

theorem layoutWarnings (u : EntityTable) : layout.warnings types u = u.warnings types := by
  induction u using layout.byTables with
  | table u ih =>
    obtain ⟨cs, us⟩ := u
    rw [Layout.warningsNode, List.flatMap_congr ih, warnings, forestWarningsMap]
    rfl

end EntityTable

theorem loadingAccounted (types : TypeIndex) :
    (∀ (ε γ : Type) (l : Layout ε γ) (e : ε),
      l.Accounted types e (l.tree types e) (l.warnings types e)) ∧
    (∀ u : EntityTable,
      EntityTable.layout.Accounted types u (u.tree types) (u.warnings types)) ∧
    ∀ (schema : Schema) data u, schema.root data = .ok u →
      schema.load types data = .ok (u.tree types, u.warnings types) := by
  refine ⟨fun ε γ l e => l.accounted types e, fun u => ?_, fun schema data u root => ?_⟩
  · rw [← EntityTable.layoutTree, ← EntityTable.layoutWarnings]
    exact EntityTable.layout.accounted types u
  · simp only [Schema.load, root]

theorem skippedForBothAccounted :
    let types : TypeIndex := { tags := [⟨7⟩, ⟨9⟩] }
    let data : Bytes := [0x92, 0x94, 0x91, 9, 0x92, 1, 0xc4, 1, 5, 0x92, 0, 0xc0, 0x92, 2, 0xc4, 0,
      0x92, 0x92, 0x90, 0x91, 0x92, 0x91, 0x91, 1, 0x90, 0x91, 0x91, 0x92, 0, 0xc4, 0]
    let t : Tree := .node [⟨⟨9⟩, .view [5]⟩] [.node [] [.leaf []], .leaf [⟨⟨7⟩, .view []⟩]]
    let ws : List Warning :=
      [.unknownIndex 9, .withoutData ⟨7⟩, .unknownIndex 2, .withoutData ⟨9⟩]
    ∃ u, Schema.standard.root data = .ok u ∧ Schema.standard.load types data = .ok (t, ws) ∧
      EntityTable.layout.Accounted types u t ws ∧
      (EntityTable.layout.all u).length = 6 ∧ t.records.length = 2 := by
  intro types data t ws
  let u : EntityTable := .node
    [⟨9, none⟩, ⟨1, some (.view [5])⟩, ⟨0, none⟩, ⟨2, some (.view [])⟩]
    [.node [] [.node [⟨1, none⟩] []], .node [⟨0, some (.view [])⟩] []]
  obtain ⟨-, tables, loads⟩ := loadingAccounted types
  have root : Schema.standard.root data = .ok u := by rfl
  have accounted : EntityTable.layout.Accounted types u t ws := tables u
  refine ⟨u, root, loads .standard data u root, accounted, ?_, by decide⟩
  rw [← accounted.count]
  decide

end EntityFoundry
