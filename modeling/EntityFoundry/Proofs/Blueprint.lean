import EntityFoundry.Blueprint
/-! Blueprint trees node by node. A property of every node is stated once for all such properties:
that its component types have numbers, and that its payloads, its blueprint and its list of
children have lengths that can be written. The view of a tree is the tree as it comes back from
the bytes it was written to. -/
namespace EntityFoundry

def Record.viewed (r : Record) : Record := ⟨r.tag, r.data.reborrow⟩

namespace Tree

@[elab_as_elim]
theorem byNodes {motive : Tree → Prop}
    (node : ∀ b ts, (∀ t ∈ ts, motive t) → motive (.node b ts)) (t : Tree) : motive t :=
  match t with
  | .node b ts => node b ts (forest ts)
where
  forest : ∀ ts : List Tree, ∀ t ∈ ts, motive t
    | [], _, member => nomatch member
    | t :: ts, u, member => by
      rcases List.mem_cons.mp member with same | later
      · exact same ▸ byNodes node t
      · exact forest ts u later

inductive Each (p : Blueprint → List Tree → Prop) : Tree → Prop
  | node {b ts} (here : p b ts) (below : ∀ t ∈ ts, Each p t) : Each p (.node b ts)

theorem Each.ofLeaf {p : Blueprint → List Tree → Prop} {b : Blueprint} (here : p b []) :
    Each p (leaf b) := .node here (by simp)

def Listed (tags : List Tag) : Tree → Prop := Each fun b _ => ∀ r ∈ b, r.tag ∈ tags

def Sized : Tree → Prop := Each fun b ts =>
  b.length < UInt32.size ∧ ts.length < UInt32.size ∧ ∀ r ∈ b, r.data.bytes.length < UInt32.size

mutual

def records : Tree → List Record
  | .node b ts => b ++ forestRecords ts

def forestRecords : List Tree → List Record
  | [] => []
  | t :: ts => t.records ++ forestRecords ts

end

mutual

def viewed : Tree → Tree
  | .node b ts => .node (b.map Record.viewed) (forestViewed ts)

def forestViewed : List Tree → List Tree
  | [] => []
  | t :: ts => t.viewed :: forestViewed ts

end

theorem blueprintViewed (t : Tree) : t.viewed.blueprint = t.blueprint.map Record.viewed := by
  cases t with
  | node b ts => rw [viewed, blueprint, blueprint]

theorem heightBelow {t : Tree} {ts : List Tree} (member : t ∈ ts) : t.height ≤ forestHeight ts := by
  induction ts with
  | nil => cases member
  | cons u us ih =>
    rw [forestHeight]
    rcases List.mem_cons.mp member with rfl | later
    · exact Nat.le_max_left _ _
    · exact Nat.le_trans (ih later) (Nat.le_max_right _ _)

theorem forestHeightLe {ts : List Tree} {n : Nat} :
    forestHeight ts ≤ n ↔ ∀ t ∈ ts, t.height ≤ n := by
  induction ts with
  | nil => simp [forestHeight]
  | cons t ts ih => rw [forestHeight, Nat.max_le, ih, List.forall_mem_cons]

theorem heightViewed (t : Tree) : t.viewed.height = t.height := by
  induction t using byNodes with
  | node b ts ih =>
    have forest : forestHeight (forestViewed ts) = forestHeight ts := by
      induction ts with
      | nil => rfl
      | cons t ts ihs =>
        rw [forestViewed, forestHeight, forestHeight, ih t (by simp),
          ihs fun u member => ih u (by simp [member])]
    rw [viewed, height, height, forest]

end Tree
end EntityFoundry
