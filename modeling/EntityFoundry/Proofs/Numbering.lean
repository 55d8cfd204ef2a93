import EntityFoundry.Entity
import EntityFoundry.Proofs.Blueprint
/-! The entities of a tree. A root is given; the nodes below it are numbered in pre-order, as a
counter issues them when the tree is created. Kin are listed a child after those below it. One
record more at some node leaves the numbers as they are. -/
namespace EntityFoundry

namespace Entity

def nth (n : Nat) : Entity := ⟨UInt64.ofNat n⟩

theorem nthValid {n : Nat} (positive : 0 < n) (small : n < UInt64.size) :
    (nth n).isValid = true := by
  refine decide_eq_true fun same => ?_
  have number : (UInt64.ofNat n).toNat = 0 := congrArg (fun e => e.id.toNat) same
  rw [UInt64.toNat_ofNat_of_lt' small] at number
  omega

end Entity

namespace Counter

theorem nextAfter {c d : Counter} {k n : Nat} (start : c.next = UInt64.ofNat k)
    (issued : d.issued = c.issued + n) : d.next = UInt64.ofNat (k + n) := by
  unfold next at start ⊢
  rw [issued, Nat.add_right_comm, UInt64.ofNat_add, start, UInt64.ofNat_add]

end Counter

namespace Tree
open Entity (nth)

mutual

/-- Entities with their blueprints: `e` for the root, those from the `k`-th on for what follows. -/
def placed (e : Entity) (k : Nat) : Tree → List (Entity × Blueprint)
  | .node b ts => (e, b) :: forestPlaced k ts

def forestPlaced (k : Nat) : List Tree → List (Entity × Blueprint)
  | [] => []
  | t :: ts => t.placed (nth k) (k + 1) ++ forestPlaced (k + t.nodeCount) ts

end

mutual

def kinship (e : Entity) (k : Nat) : Tree → List (Entity × Entity)
  | .node _ ts => forestKinship e k ts

def forestKinship (parent : Entity) (k : Nat) : List Tree → List (Entity × Entity)
  | [] => []
  | t :: ts =>
    t.kinship (nth k) (k + 1) ++ (parent, nth k) :: forestKinship parent (k + t.nodeCount) ts

end

theorem nodeCountChildren (t : Tree) : t.nodeCount = forestCount t.children + 1 := by
  cases t with
  | node b ts => rw [nodeCount, children, Nat.add_comm]

theorem preorderLength (t : Tree) (depth : Nat) : (t.preorder depth).length = t.nodeCount := by
  induction t using byNodes generalizing depth with
  | node b ts ih =>
    have forest : (forestPreorder (depth + 1) ts).length = forestCount ts := by
      induction ts with
      | nil => rfl
      | cons t ts ihs =>
        rw [forestPreorder, List.length_append, ih t (by simp),
          ihs fun u member => ih u (by simp [member]), forestCount]
    rw [preorder, List.length_cons, forest, nodeCount, Nat.add_comm]

theorem placedPreorder (t : Tree) (k depth : Nat) :
    t.placed (nth k) (k + 1) =
      (t.preorder depth).mapIdx fun i node => (nth (k + i), node.2.2) := by
  induction t using byNodes generalizing k depth with
  | node b ts ih =>
    have forest (n : Nat) : forestPlaced n ts =
        (forestPreorder (depth + 1) ts).mapIdx fun i node => (nth (n + i), node.2.2) := by
      induction ts generalizing n with
      | nil => rfl
      | cons t ts ihs =>
        rw [forestPlaced, forestPreorder, List.mapIdx_append, ih t (by simp) n (depth + 1),
          ihs (fun u member => ih u (by simp [member])), preorderLength]
        simp only [Nat.add_assoc, Nat.add_comm t.nodeCount]
    rw [placed, preorder, List.mapIdx_cons, forest]
    simp only [Nat.add_zero, Nat.add_assoc, Nat.add_comm 1]

theorem forestCountAppend (ts us : List Tree) :
    forestCount (ts ++ us) = forestCount ts + forestCount us := by
  induction ts with
  | nil => rw [List.nil_append, forestCount, Nat.zero_add]
  | cons t ts ih => rw [List.cons_append, forestCount, forestCount, ih, Nat.add_assoc]

theorem forestPlacedAppend (k : Nat) (ts us : List Tree) :
    forestPlaced k (ts ++ us) = forestPlaced k ts ++ forestPlaced (k + forestCount ts) us := by
  induction ts generalizing k with
  | nil => rfl
  | cons t ts ih =>
    rw [List.cons_append, forestPlaced, forestPlaced, ih, forestCount, List.append_assoc,
      Nat.add_assoc]

theorem forestKinshipAppend (parent : Entity) (k : Nat) (ts us : List Tree) :
    forestKinship parent k (ts ++ us) =
      forestKinship parent k ts ++ forestKinship parent (k + forestCount ts) us := by
  induction ts generalizing k with
  | nil => rfl
  | cons t ts ih =>
    rw [List.cons_append, forestKinship, forestKinship, ih, forestCount, List.append_assoc,
      List.cons_append, Nat.add_assoc]

inductive Inserted (r : Record) : Tree → Tree → Prop
  | here (before after : Blueprint) (ts : List Tree) :
      Inserted r (.node (before ++ after) ts) (.node (before ++ r :: after) ts)
  | deeper (b : Blueprint) (before : List Tree) {t u : Tree} (after : List Tree)
      (inserted : Inserted r t u) :
      Inserted r (.node b (before ++ t :: after)) (.node b (before ++ u :: after))

namespace Inserted
variable {r : Record} {t u : Tree}

theorem nodeCount (inserted : Inserted r t u) : u.nodeCount = t.nodeCount := by
  induction inserted with
  | here before after ts => rw [Tree.nodeCount, Tree.nodeCount]
  | deeper b before after _ ih =>
    rw [Tree.nodeCount, Tree.nodeCount, forestCountAppend, forestCountAppend, forestCount,
      forestCount, ih]

theorem kinship (inserted : Inserted r t u) (e : Entity) (k : Nat) :
    u.kinship e k = t.kinship e k := by
  induction inserted generalizing e k with
  | here before after ts => rw [Tree.kinship, Tree.kinship]
  | deeper b before after below ih =>
    rw [Tree.kinship, Tree.kinship, forestKinshipAppend, forestKinshipAppend, forestKinship,
      forestKinship, ih, below.nodeCount]

theorem placed (inserted : Inserted r t u) (e : Entity) (k : Nat) :
    ∃ first d before after rest, t.placed e k = first ++ (d, before ++ after) :: rest ∧
      u.placed e k = first ++ (d, before ++ r :: after) :: rest := by
  induction inserted generalizing e k with
  | here before after ts =>
    refine ⟨[], e, before, after, forestPlaced k ts, ?_, ?_⟩
    · rw [Tree.placed, List.nil_append]
    · rw [Tree.placed, List.nil_append]
  | @deeper b before t u after below ih =>
    obtain ⟨first, d, former, latter, rest, left, right⟩ :=
      ih (nth (k + forestCount before)) (k + forestCount before + 1)
    refine ⟨(e, b) :: forestPlaced k before ++ first, d, former, latter,
      rest ++ forestPlaced (k + forestCount before + t.nodeCount) after, ?_, ?_⟩
    · rw [Tree.placed, forestPlacedAppend, forestPlaced, left]
      simp
    · rw [Tree.placed, forestPlacedAppend, forestPlaced, right, below.nodeCount]
      simp

end Inserted

end Tree
end EntityFoundry
