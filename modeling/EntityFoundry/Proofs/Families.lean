import EntityFoundry.Proofs.Numbering
import Mathlib.Data.List.Nodup
import Mathlib.Data.List.Perm.Basic
/-! The entities of a tree by family and by level. Families list each entity with its children, in
pre-order; levels list the entities at one depth, from left to right. The kin of a tree, met in
another order, are the same families, and each level holds the children of the level above. -/
namespace EntityFoundry

namespace Entity

def numbered (k n : Nat) : List Entity := (List.range' k n).map nth

theorem nthNumber {n : Nat} (small : n < UInt64.size) : (nth n).id.toNat = n :=
  UInt64.toNat_ofNat_of_lt' small

theorem ofNumber (e : Entity) : nth e.id.toNat = e := congrArg Entity.mk UInt64.ofNat_toNat

theorem numberedNext (k n : Nat) : numbered k (n + 1) = nth k :: numbered (k + 1) n := rfl

theorem numberedAppend (k m n : Nat) :
    numbered k m ++ numbered (k + m) n = numbered k (m + n) := by
  rw [numbered, numbered, numbered, ← List.map_append, List.range'_append_1]

theorem memNumbered {k n : Nat} (room : k + n ≤ UInt64.size) {e : Entity} :
    e ∈ numbered k n ↔ k ≤ e.id.toNat ∧ e.id.toNat < k + n := by
  refine ⟨fun member => ?_, fun inside => ?_⟩
  · obtain ⟨i, counted, rfl⟩ := List.mem_map.mp member
    obtain ⟨low, high⟩ := List.mem_range'_1.mp counted
    rw [nthNumber (by omega)]
    exact ⟨low, high⟩
  · exact List.mem_map.mpr ⟨e.id.toNat, List.mem_range'_1.mpr inside, ofNumber e⟩

theorem numberedNodup {k n : Nat} (room : k + n ≤ UInt64.size) : (numbered k n).Nodup := by
  refine List.Nodup.map_on (fun i low j high same => ?_) List.nodup_range'
  have left := (List.mem_range'_1.mp low).2
  have right := (List.mem_range'_1.mp high).2
  rw [← nthNumber (n := i) (by omega), ← nthNumber (n := j) (by omega), same]

end Entity

namespace Tree
open Entity (nth numbered memNumbered)

def roots (k : Nat) : List Tree → List Entity
  | [] => []
  | t :: ts => nth k :: roots (k + t.nodeCount) ts

mutual

def families (e : Entity) (k : Nat) : Tree → List (Entity × List Entity)
  | .node _ ts => (e, roots k ts) :: forestFamilies k ts

def forestFamilies (k : Nat) : List Tree → List (Entity × List Entity)
  | [] => []
  | t :: ts => t.families (nth k) (k + 1) ++ forestFamilies (k + t.nodeCount) ts

end

mutual

def level (e : Entity) (k : Nat) : (depth : Nat) → Tree → List Entity
  | 0, _ => [e]
  | depth + 1, .node _ ts => forestLevel k depth ts

def forestLevel (k : Nat) : (depth : Nat) → List Tree → List Entity
  | _, [] => []
  | depth, t :: ts => t.level (nth k) (k + 1) depth ++ forestLevel (k + t.nodeCount) depth ts

end

def levelOrder (e : Entity) (k : Nat) (t : Tree) : List Entity :=
  (List.range t.height).flatMap fun depth => t.level e k depth

/-! Families. -/

theorem familiesFirst (t : Tree) (e : Entity) (k : Nat) :
    (t.families e k).map (·.1) = e :: numbered k (forestCount t.children) := by
  induction t using byNodes generalizing e k with
  | node b ts ih =>
    have forest (k : Nat) : (forestFamilies k ts).map (·.1) = numbered k (forestCount ts) := by
      induction ts generalizing k with
      | nil => rfl
      | cons t ts ihs =>
        have count := t.nodeCountChildren
        rw [forestFamilies, List.map_append, ih t (by simp),
          ihs fun u member => ih u (by simp [member]), ← Entity.numberedNext, ← count,
          Entity.numberedAppend, forestCount]
    rw [families, List.map_cons, forest, children]

theorem forestFamiliesFirst (ts : List Tree) (k : Nat) :
    (forestFamilies k ts).map (·.1) = numbered k (forestCount ts) :=
  (List.cons.inj (familiesFirst (.node [] ts) .invalid k)).2

theorem kinshipChildren (t : Tree) (e : Entity) (k : Nat) :
    ((t.kinship e k).map (·.2)).Perm (numbered k (forestCount t.children)) := by
  induction t using byNodes generalizing e k with
  | node b ts ih =>
    have forest (k : Nat) :
        ((forestKinship e k ts).map (·.2)).Perm (numbered k (forestCount ts)) := by
      induction ts generalizing k with
      | nil => exact .nil
      | cons t ts ihs =>
        have count := t.nodeCountChildren
        have first := ih t (by simp) (nth k) (k + 1)
        have rest := ihs (fun u member => ih u (by simp [member])) (k + t.nodeCount)
        rw [forestKinship, List.map_append, List.map_cons, forestCount, ← Entity.numberedAppend,
          count, Entity.numberedNext, ← count]
        exact List.perm_middle.trans ((first.append rest).cons (nth k))
    rw [kinship, children]
    exact forest k

theorem kinshipParents (t : Tree) (e : Entity) (k : Nat) :
    ∀ kin ∈ t.kinship e k, kin.1 = e ∨ kin.1 ∈ numbered k (forestCount t.children) := by
  induction t using byNodes generalizing e k with
  | node b ts ih =>
    have forest (k : Nat) :
        ∀ kin ∈ forestKinship e k ts, kin.1 = e ∨ kin.1 ∈ numbered k (forestCount ts) := by
      induction ts generalizing k with
      | nil => exact fun kin member => nomatch member
      | cons t ts ihs =>
        intro kin member
        have count := t.nodeCountChildren
        rw [forestCount, ← Entity.numberedAppend, count, Entity.numberedNext, ← count]
        rw [forestKinship] at member
        rcases List.mem_append.mp member with inside | outside
        · rcases ih t (by simp) (nth k) (k + 1) kin inside with same | below
          · exact .inr (by simp [same])
          · exact .inr (by simp [below])
        · rcases List.mem_cons.mp outside with rfl | later
          · exact .inl rfl
          · rcases ihs (fun u member => ih u (by simp [member])) _ kin later with same | below
            · exact .inl same
            · exact .inr (by simp [below])
    rw [kinship, children]
    exact forest k

theorem familyNumber {t : Tree} {k : Nat} (room : k + t.nodeCount ≤ UInt64.size) :
    ∀ family ∈ t.families (nth k) (k + 1),
      k ≤ family.1.id.toNat ∧ family.1.id.toNat < k + t.nodeCount := by
  intro family member
  have first := List.mem_map_of_mem (f := Prod.fst) member
  rw [familiesFirst, ← Entity.numberedNext, ← t.nodeCountChildren] at first
  exact (memNumbered room).mp first

theorem forestFamilyNumber {ts : List Tree} {k : Nat} (room : k + forestCount ts ≤ UInt64.size) :
    ∀ family ∈ forestFamilies k ts,
      k ≤ family.1.id.toNat ∧ family.1.id.toNat < k + forestCount ts := by
  intro family member
  have first := List.mem_map_of_mem (f := Prod.fst) member
  rw [forestFamiliesFirst] at first
  exact (memNumbered room).mp first

def childrenAmong (kin : List (Entity × Entity)) (e : Entity) : List Entity :=
  (kin.filter fun x => decide (x.1 = e)).map (·.2)

theorem childrenAmongAppend (first second : List (Entity × Entity)) (e : Entity) :
    childrenAmong (first ++ second) e = childrenAmong first e ++ childrenAmong second e := by
  rw [childrenAmong, List.filter_append, List.map_append]
  rfl

theorem childrenAmongStranger {t : Tree} {e x : Entity} {k : Nat} (other : x ≠ e)
    (outside : x ∉ numbered k (forestCount t.children)) :
    childrenAmong (t.kinship e k) x = [] := by
  have none : (t.kinship e k).filter (fun kin => decide (kin.1 = x)) = [] := by
    refine List.filter_eq_nil_iff.mpr fun kin member same => ?_
    have same := of_decide_eq_true same
    rcases kinshipParents t e k kin member with root | below
    · exact other (same.symm.trans root)
    · exact outside (same ▸ below)
  rw [childrenAmong, none, List.map_nil]

theorem childrenAmongFirst {t : Tree} {x : Entity} {k : Nat}
    (room : k + t.nodeCount ≤ UInt64.size)
    (outside : x.id.toNat < k ∨ k + t.nodeCount ≤ x.id.toNat) :
    childrenAmong (t.kinship (nth k) (k + 1)) x = [] := by
  have count := t.nodeCountChildren
  refine childrenAmongStranger (fun same => ?_) ?_
  · rw [same, Entity.nthNumber (by omega)] at outside
    omega
  · rw [memNumbered (by omega)]
    omega

theorem childrenAmongLater {ts : List Tree} {parent x : Entity} {k : Nat} (other : x ≠ parent)
    (room : k + forestCount ts ≤ UInt64.size) (before : x.id.toNat < k) :
    childrenAmong (forestKinship parent k ts) x = [] := by
  refine childrenAmongStranger (t := .node [] ts) other ?_
  rw [children, memNumbered room]
  omega

theorem childrenAmongRoot {ts : List Tree} {parent : Entity} {k : Nat}
    (room : k + forestCount ts ≤ UInt64.size)
    (outside : parent.id.toNat < k ∨ k + forestCount ts ≤ parent.id.toNat) :
    childrenAmong (forestKinship parent k ts) parent = roots k ts := by
  induction ts generalizing k with
  | nil => rfl
  | cons t ts ih =>
    have count := t.nodeCountChildren
    rw [forestCount] at room outside
    have here := childrenAmongFirst (t := t) (x := parent) (k := k) (by omega) (by omega)
    have rest := ih (k := k + t.nodeCount) (by omega) (by omega)
    rw [forestKinship, childrenAmongAppend, here, List.nil_append, roots, ← rest]
    simp [childrenAmong]

theorem childrenAmongForest {ts : List Tree}
    (each : ∀ t ∈ ts, ∀ {e : Entity} {k : Nat}, k + forestCount t.children ≤ UInt64.size →
      (e.id.toNat < k ∨ k + forestCount t.children ≤ e.id.toNat) →
      ∀ family ∈ t.families e k, childrenAmong (t.kinship e k) family.1 = family.2)
    {parent : Entity} {k : Nat} (room : k + forestCount ts ≤ UInt64.size)
    (outside : parent.id.toNat < k ∨ k + forestCount ts ≤ parent.id.toNat) :
    ∀ family ∈ forestFamilies k ts,
      childrenAmong (forestKinship parent k ts) family.1 = family.2 := by
  induction ts generalizing k with
  | nil => exact fun family member => nomatch member
  | cons t ts ih =>
    intro family member
    have place := forestFamilyNumber room family member
    have other : family.1 ≠ parent := fun same => by
      rw [same] at place
      omega
    have count := t.nodeCountChildren
    rw [forestCount] at room outside place
    have split : childrenAmong (forestKinship parent k (t :: ts)) family.1 =
        childrenAmong (t.kinship (nth k) (k + 1)) family.1 ++
          childrenAmong (forestKinship parent (k + t.nodeCount) ts) family.1 := by
      rw [forestKinship, childrenAmongAppend]
      simp [childrenAmong, Ne.symm other]
    rw [split]
    -- The first tree and the later ones are numbered apart, so only one of the parts has kin of it.
    rcases List.mem_append.mp member with inside | later
    · have number := familyNumber (by omega) family inside
      have own : (nth k).id.toNat = k := Entity.nthNumber (by omega)
      rw [each t (by simp) (by omega) (by omega) family inside,
        childrenAmongLater other (by omega) (by omega), List.append_nil]
    · have number := forestFamilyNumber (by omega) family later
      rw [childrenAmongFirst (by omega) (by omega), List.nil_append]
      exact ih (fun u member => each u (by simp [member])) (by omega) (by omega) family later

theorem childrenAmongFamily (t : Tree) {e : Entity} {k : Nat}
    (room : k + forestCount t.children ≤ UInt64.size)
    (outside : e.id.toNat < k ∨ k + forestCount t.children ≤ e.id.toNat) :
    ∀ family ∈ t.families e k, childrenAmong (t.kinship e k) family.1 = family.2 := by
  induction t using byNodes generalizing e k with
  | node b ts ih =>
    intro family member
    rw [families] at member
    rw [kinship]
    rcases List.mem_cons.mp member with rfl | below
    · exact childrenAmongRoot room outside
    · exact childrenAmongForest ih room outside family below

/-! Levels. -/

theorem forestLevelRoots (k : Nat) (ts : List Tree) : forestLevel k 0 ts = roots k ts := by
  induction ts generalizing k with
  | nil => rfl
  | cons t ts ih => rw [forestLevel, ih, roots, level, List.singleton_append]

theorem forestLevelNext {ts : List Tree} {kids : Entity → List Entity} {depth : Nat}
    (each : ∀ t ∈ ts, ∀ {e : Entity} {k : Nat},
      (∀ family ∈ t.families e k, kids family.1 = family.2) →
      t.level e k (depth + 1) = (t.level e k depth).flatMap kids)
    {k : Nat} (known : ∀ family ∈ forestFamilies k ts, kids family.1 = family.2) :
    forestLevel k (depth + 1) ts = (forestLevel k depth ts).flatMap kids := by
  induction ts generalizing k with
  | nil => simp [forestLevel]
  | cons t ts ih =>
    rw [forestFamilies] at known
    have first := each t (by simp) fun family member => known family (List.mem_append_left _ member)
    have rest := ih (fun u member => each u (by simp [member]))
      fun family member => known family (List.mem_append_right _ member)
    rw [forestLevel, forestLevel, List.flatMap_append, first, rest]

theorem levelNext (t : Tree) {e : Entity} {k : Nat} {kids : Entity → List Entity}
    (known : ∀ family ∈ t.families e k, kids family.1 = family.2) (depth : Nat) :
    t.level e k (depth + 1) = (t.level e k depth).flatMap kids := by
  induction t using byNodes generalizing e k depth with
  | node b ts ih =>
    rw [families] at known
    cases depth with
    | zero =>
      have own := known (e, roots k ts) (by simp)
      rw [level, level, forestLevelRoots, List.flatMap_singleton]
      exact own.symm
    | succ depth =>
      rw [level, level]
      exact forestLevelNext (fun t member _ _ known => ih t member known depth)
        fun family member => known family (List.mem_cons_of_mem _ member)

theorem levelEmpty (t : Tree) (e : Entity) (k depth : Nat) :
    t.level e k depth = [] ↔ t.height ≤ depth := by
  induction t using byNodes generalizing e k depth with
  | node b ts ih =>
    have forest (k depth : Nat) : forestLevel k depth ts = [] ↔ forestHeight ts ≤ depth := by
      induction ts generalizing k with
      | nil => simp [forestLevel, forestHeight]
      | cons t ts ihs =>
        rw [forestLevel, List.append_eq_nil_iff, ih t (by simp),
          ihs fun u member => ih u (by simp [member]), forestHeight, Nat.max_le]
    rw [height]
    cases depth with
    | zero => simp [level]
    | succ depth =>
      rw [level, forest]
      omega

theorem levelsPast (t : Tree) (e : Entity) (k : Nat) {rounds : Nat} (enough : t.height ≤ rounds) :
    (List.range rounds).flatMap (t.level e k) = t.levelOrder e k := by
  obtain ⟨more, rfl⟩ := Nat.exists_eq_add_of_le enough
  have none : ((List.range more).map (t.height + ·)).flatMap (t.level e k) = [] := by
    refine List.flatMap_eq_nil_iff.mpr fun depth member => ?_
    obtain ⟨i, _, rfl⟩ := List.mem_map.mp member
    exact (levelEmpty t e k _).mpr (Nat.le_add_right _ _)
  rw [List.range_add, List.flatMap_append, none, List.append_nil]
  rfl

theorem forestLevelsPerm {ts : List Tree}
    (each : ∀ t ∈ ts, ∀ (e : Entity) (k : Nat),
      (t.levelOrder e k).Perm (e :: numbered k (forestCount t.children)))
    (k : Nat) {rounds : Nat} (enough : forestHeight ts ≤ rounds) :
    ((List.range rounds).flatMap fun depth => forestLevel k depth ts).Perm
      (numbered k (forestCount ts)) := by
  induction ts generalizing k with
  | nil => simp [forestLevel, forestCount, numbered]
  | cons t ts ih =>
    have count := t.nodeCountChildren
    rw [forestHeight, Nat.max_le] at enough
    have first := each t (by simp) (nth k) (k + 1)
    rw [← levelsPast t _ _ enough.1, ← Entity.numberedNext, ← count] at first
    have rest := ih (fun u member => each u (by simp [member])) (k + t.nodeCount) enough.2
    simp only [forestLevel, forestCount, ← Entity.numberedAppend]
    exact (List.flatMap_append_perm _ _ _).symm.trans (first.append rest)

theorem levelOrderPerm (t : Tree) (e : Entity) (k : Nat) :
    (t.levelOrder e k).Perm (e :: numbered k (forestCount t.children)) := by
  induction t using byNodes generalizing e k with
  | node b ts ih =>
    have below := forestLevelsPerm ih k (Nat.le_refl (forestHeight ts))
    have first : (node b ts).levelOrder e k =
        e :: (List.range (forestHeight ts)).flatMap fun depth => forestLevel k depth ts := by
      rw [levelOrder, height, Nat.add_comm, List.range_succ_eq_map, List.flatMap_cons,
        List.flatMap_map]
      rfl
    rw [first, children]
    exact below.cons e

end Tree
end EntityFoundry
