import EntityFoundry.Systems.Links
/-! Links under attaching and detaching. Where each child is on the list of its parent and on no
other, detaching an entity takes it off every list and its own children off its list, and no other
link changes. -/
namespace EntityFoundry

namespace Dict
variable {κ α : Type} [DecidableEq κ]

theorem memOfGet {d : Dict κ α} {k : κ} {v : α} (found : d.get? k = some v) :
    (k, v) ∈ d.entries := by
  obtain ⟨entry, first, rfl⟩ := Option.map_eq_some_iff.mp found
  have key := List.find?_some first
  exact of_decide_eq_true key ▸ List.mem_of_find?_eq_some first

theorem getEraseAll (ks : List κ) (d : Dict κ α) (k : κ) :
    (ks.foldl erase d).get? k = if k ∈ ks then none else d.get? k := by
  induction ks generalizing d with
  | nil => simp
  | cons j ks ih =>
    rw [List.foldl_cons, ih, getErase]
    by_cases first : k = j <;> simp [first]

def load (d : Dict κ (List α)) : Nat := (d.entries.flatMap (·.2)).length

theorem loadErase (d : Dict κ (List α)) (k : κ) :
    (d.erase k).load + ((d.get? k).getD []).length ≤ d.load := by
  obtain ⟨es⟩ := d
  unfold load erase get?
  induction es with
  | nil => simp
  | cons e es ih =>
    by_cases same : e.1 = k
    · have fewer : ((es.filter fun e => decide (e.1 ≠ k)).flatMap (·.2)).length ≤
          (es.flatMap (·.2)).length := Nat.le_trans (Nat.le_add_right _ _) ih
      simp [same] at fewer ⊢
      omega
    · simp [same] at ih ⊢
      omega

theorem loadInsert (d : Dict κ (List α)) (k : κ) {v : List α}
    (fewer : v.length ≤ ((d.get? k).getD []).length) : (d.insert k v).load ≤ d.load := by
  have erased := d.loadErase k
  have inserted : (d.insert k v).load = v.length + (d.erase k).load := by
    simp [insert, load]
  omega

end Dict

namespace Links

structure Paired (l : Links) : Prop where
  agree : ∀ child parent, l.parentOf child = some parent ↔ child ∈ l.childrenOf parent
  unique : ∀ parent, (l.childrenOf parent).Nodup

theorem pairedEmpty : Paired {} :=
  ⟨fun _ _ => ⟨fun found => (nomatch found), fun member => (nomatch member)⟩, fun _ => .nil⟩

theorem parentOfAttach (l : Links) (parent child e : Entity) :
    (l.attach parent child).parentOf e = if e = child then some parent else l.parentOf e :=
  Dict.getInsert l.parents child e parent

theorem childrenOfAttach (l : Links) (parent child p : Entity) :
    (l.attach parent child).childrenOf p =
      if p = parent then l.childrenOf parent ++ [child] else l.childrenOf p := by
  simp only [childrenOf, attach, Dict.getInsert]
  split <;> rfl

theorem parentOfLeave (l : Links) (e c : Entity) :
    (l.leaveParent e).parentOf c = if c = e then none else l.parentOf c := by
  unfold leaveParent
  cases found : l.parentOf e with
  | none =>
    by_cases same : c = e
    · simp [same, found]
    · simp [same]
  | some parent => exact Dict.getErase l.parents e c

namespace Paired
variable {l : Links} (paired : l.Paired)
include paired

theorem attach {child : Entity} (unlinked : l.parentOf child = none) (parent : Entity) :
    (l.attach parent child).Paired := by
  have absent (p : Entity) : child ∉ l.childrenOf p := fun member => by
    rw [← paired.agree, unlinked] at member
    cases member
  refine ⟨fun c p => ?_, fun p => ?_⟩
  · rw [parentOfAttach, childrenOfAttach]
    by_cases same : c = child
    · subst same
      by_cases up : p = parent
      · simp [up]
      · have other : ¬ parent = p := fun h => up h.symm
        simp [up, other, absent]
    · by_cases up : p = parent <;> simp [same, up, paired.agree]
  · rw [childrenOfAttach]
    split
    · refine List.nodup_append.mpr ⟨paired.unique parent, by simp, ?_⟩
      intro a member b single same
      obtain rfl := List.mem_singleton.mp single
      exact absent parent (same ▸ member)
    · exact paired.unique p

theorem absent {c p : Entity} (unlinked : l.parentOf c ≠ some p) : c ∉ l.childrenOf p :=
  fun member => unlinked ((paired.agree c p).mpr member)

theorem childrenOfLeave (e p : Entity) :
    (l.leaveParent e).childrenOf p = (l.childrenOf p).filter (· ≠ e) := by
  have others (free : l.parentOf e ≠ some p) :
      (l.childrenOf p).filter (· ≠ e) = l.childrenOf p := by
    refine List.filter_eq_self.mpr fun c member => decide_eq_true fun same => ?_
    exact paired.absent free (same ▸ member)
  unfold leaveParent
  cases found : l.parentOf e with
  | none => exact (others (by simp [found])).symm
  | some parent =>
    have member := (paired.agree e parent).mp found
    cases listed : l.children.get? parent with
    | none => simp [childrenOf, listed] at member
    | some siblings =>
      have kept := Dict.getInsert l.children parent p (siblings.filter (· ≠ e))
      by_cases same : p = parent
      · subst same
        simp only [childrenOf, listed, kept, if_true, Option.getD_some]
      · have free : l.parentOf e ≠ some p := by
          rw [found]
          exact fun h => same (Option.some.inj h).symm
        have others := others free
        simp only [childrenOf] at others
        simp only [childrenOf, listed, kept, same, if_false, others]

theorem orphansFilter (e : Entity) : l.orphans e = (l.childrenOf e).filter (· ≠ e) :=
  paired.childrenOfLeave e e

theorem childrenOfDetach (e p : Entity) :
    (l.detach e).childrenOf p = if p = e then [] else (l.childrenOf p).filter (· ≠ e) := by
  have left := paired.childrenOfLeave e p
  simp only [childrenOf, detach, Dict.getErase] at left ⊢
  split
  · rfl
  · exact left

theorem parentOfDetach (e c : Entity) :
    (l.detach e).parentOf c = if c = e then none else (l.parentOf c).filter (· ≠ e) := by
  have left := parentOfLeave l e c
  have orphan : c ∈ (l.leaveParent e).childrenOf e ↔ l.parentOf c = some e ∧ c ≠ e := by
    simp [paired.childrenOfLeave, paired.agree]
  simp only [parentOf, detach, Dict.getEraseAll] at left orphan ⊢
  rw [left]
  by_cases same : c = e
  · simp [same]
  · cases found : l.parents.get? c with
    | none => simp [same]
    | some parent =>
      by_cases up : parent = e <;> simp [same, orphan, found, up, Option.filter]

theorem detach (e : Entity) : (l.detach e).Paired := by
  refine ⟨fun c p => ?_, fun p => ?_⟩
  · rw [paired.parentOfDetach, paired.childrenOfDetach]
    by_cases same : c = e <;> by_cases up : p = e <;>
      simp [same, up, Option.filter_eq_some_iff, paired.agree]
  · rw [paired.childrenOfDetach]
    split
    · exact .nil
    · exact (paired.unique p).filter _

end Paired

theorem loadDetach (l : Links) (e : Entity) :
    (l.detach e).children.load + (l.orphans e).length ≤ l.children.load := by
  have erased := (l.leaveParent e).children.loadErase e
  have left : (l.leaveParent e).children.load ≤ l.children.load := by
    unfold leaveParent
    cases l.parentOf e with
    | none => exact Nat.le_refl _
    | some parent =>
      cases listed : l.children.get? parent with
      | none => simp [listed]
      | some siblings =>
        have fewer := List.length_filter_le (fun s => decide (s ≠ e)) siblings
        simp only [listed]
        exact l.children.loadInsert parent (by simpa [listed] using fewer)
  exact Nat.le_trans erased left

end Links
end EntityFoundry
