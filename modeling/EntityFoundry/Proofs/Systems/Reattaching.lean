import EntityFoundry.Proofs.Systems.Links
/-! Children that are attached again. Attaching takes a child off no list, so a former parent keeps
it and queues it when it is destroyed. The links stay paired, and a child is queued by its parent
alone, exactly as long as no child is attached that still has another parent. -/
namespace EntityFoundry.Links

inductive Change
  | attach (parent child : Entity)
  | destroy (e : Entity)
  deriving DecidableEq, Repr

def apply (l : Links) : Change → Links
  | .attach parent child => l.attach parent child
  | .destroy e => l.detach e

def run (l : Links) (changes : List Change) : Links := changes.foldl apply l

def Agree (l : Links) : Prop :=
  ∀ child parent, l.parentOf child = some parent ↔ child ∈ l.childrenOf parent

def QueuesOwn (l : Links) : Prop := ∀ e, ∀ child ∈ l.orphans e, l.parentOf child = some e

def Moves (l : Links) : Change → Prop
  | .attach parent child => ∃ former, l.parentOf child = some former ∧ former ≠ parent
  | .destroy _ => False

theorem memLeave (l : Links) (e p c : Entity) :
    c ∈ (l.leaveParent e).childrenOf p ↔
      c ∈ l.childrenOf p ∧ ¬ (c = e ∧ l.parentOf e = some p) := by
  unfold leaveParent
  cases found : l.parentOf e with
  | none => simp
  | some parent =>
    simp only [Option.some.injEq]
    cases listed : l.children.get? parent with
    | none =>
      refine ⟨fun member => ⟨member, ?_⟩, And.left⟩
      rintro ⟨-, rfl⟩
      simp [childrenOf, listed] at member
    | some siblings =>
      simp only [childrenOf, Dict.getInsert]
      by_cases same : p = parent
      · subst same
        simp [listed]
      · simp [same, Ne.symm same]

theorem memOrphans (l : Links) (e c : Entity) :
    c ∈ l.orphans e ↔ c ∈ l.childrenOf e ∧ ¬ (c = e ∧ l.parentOf e = some e) :=
  l.memLeave e e c

theorem memDetach (l : Links) (e p c : Entity) :
    c ∈ (l.detach e).childrenOf p ↔
      p ≠ e ∧ c ∈ l.childrenOf p ∧ ¬ (c = e ∧ l.parentOf e = some p) := by
  rw [← memLeave]
  simp only [childrenOf, detach, Dict.getErase]
  by_cases same : p = e <;> simp [same]

theorem parentOfCleared (l : Links) (e c : Entity) :
    (l.detach e).parentOf c = if c = e ∨ c ∈ l.orphans e then none else l.parentOf c := by
  have left := parentOfLeave l e c
  simp only [parentOf, detach, orphans, Dict.getEraseAll] at left ⊢
  rw [left]
  by_cases same : c = e <;> simp [same]

namespace Agree
variable {l : Links} (agree : l.Agree)
include agree

theorem queuesOwn : l.QueuesOwn :=
  fun e c queued => (agree c e).mpr ((l.memOrphans e c).mp queued).1

theorem detach (e : Entity) : (l.detach e).Agree := by
  intro c p
  rw [memDetach, parentOfCleared, ← agree]
  by_cases same : c = e
  · subst same
    simp
  · by_cases up : p = e
    · subst up
      simp [memOrphans, ← agree c p, same]
    · have kept : c ∈ l.orphans e → l.parentOf c ≠ some p := fun queued found =>
        up (Option.some.inj (found.symm.trans (agree.queuesOwn e c queued)))
      by_cases queued : c ∈ l.orphans e <;> simp [same, up, queued, kept]

theorem attach {p c : Entity} (still : ¬ l.Moves (.attach p c)) : (l.attach p c).Agree := by
  intro d q
  rw [parentOfAttach, childrenOfAttach]
  by_cases same : d = c
  · subst same
    by_cases up : q = p
    · simp [up]
    · have absent : d ∉ l.childrenOf q := fun member => still ⟨q, (agree d q).mpr member, up⟩
      simp [up, Ne.symm up, absent]
  · by_cases up : q = p <;> simp [same, up, agree d]

theorem apply {change : Change} (still : ¬ l.Moves change) : (l.apply change).Agree := by
  cases change with
  | attach p c => exact agree.attach still
  | destroy e => exact agree.detach e

theorem moved {change : Change} (moves : l.Moves change) : ¬ (l.apply change).QueuesOwn := by
  -- The former parent still lists the child that has moved on.
  cases change with
  | destroy e => exact moves.elim
  | attach p c =>
    obtain ⟨former, found, other⟩ := moves
    have parent : (l.attach p c).parentOf c = some p := by rw [parentOfAttach, if_pos rfl]
    have elsewhere : (l.attach p c).parentOf c ≠ some former := fun h =>
      other (Option.some.inj (h.symm.trans parent))
    intro own
    have kept : c ∈ (l.attach p c).childrenOf former := by
      rw [childrenOfAttach, if_neg other]
      exact (agree c former).mp found
    refine elsewhere (own former c ((memOrphans _ former c).mpr ⟨kept, ?_⟩))
    rintro ⟨rfl, self⟩
    exact elsewhere self

theorem runOwn (changes : List Change) :
    (∀ before, before <+: changes → (l.run before).QueuesOwn) ↔
      ∀ before change, before ++ [change] <+: changes → ¬ (l.run before).Moves change := by
  -- As long as none has moved a child the links agree; the first that does ends it.
  induction changes generalizing l with
  | nil =>
    refine ⟨fun _ before change within => ?_, fun _ before within => ?_⟩
    · exact absurd (List.prefix_nil.mp within) (by simp)
    · obtain rfl := List.prefix_nil.mp within
      exact agree.queuesOwn
  | cons first rest ih =>
    refine ⟨fun own => ?_, fun still => ?_⟩
    · have stays : ¬ l.Moves first := fun moves =>
        agree.moved moves (own [first] (by simp))
      have later := (ih (agree.apply stays)).mp fun before within =>
        own (first :: before) (List.cons_prefix_cons.mpr ⟨rfl, within⟩)
      intro before change within
      cases before with
      | nil =>
        obtain ⟨rfl, -⟩ := List.cons_prefix_cons.mp within
        exact stays
      | cons b before =>
        obtain ⟨rfl, tail⟩ := List.cons_prefix_cons.mp within
        exact later before change tail
    · have stays : ¬ l.Moves first := still [] first (by simp)
      have later := (ih (agree.apply stays)).mpr fun before change within =>
        still (first :: before) change (List.cons_prefix_cons.mpr ⟨rfl, within⟩)
      intro before within
      cases before with
      | nil => exact agree.queuesOwn
      | cons b before =>
        obtain ⟨rfl, tail⟩ := List.cons_prefix_cons.mp within
        exact later before tail

end Agree

theorem Paired.attachIff {l : Links} (paired : l.Paired) (p c : Entity) :
    (l.attach p c).Paired ↔ l.parentOf c = none := by
  refine ⟨fun kept => ?_, fun free => paired.attach free p⟩
  cases found : l.parentOf c with
  | none => rfl
  | some former =>
    exfalso
    -- The child is now on two lists, or twice on one.
    by_cases same : former = p
    · subst same
      have twice := kept.unique former
      rw [childrenOfAttach, if_pos rfl] at twice
      have listed := (paired.agree c former).mp found
      exact (List.nodup_append.mp twice).2.2 c listed c (by simp) rfl
    · have moves : l.Moves (.attach p c) := ⟨former, found, same⟩
      exact Agree.moved paired.agree moves (Agree.queuesOwn kept.agree)

theorem pairedUnlessReattached {l : Links} (paired : l.Paired) :
    (∀ p c, (l.attach p c).parentOf c = some p ∧
      (∀ e, e ≠ c → (l.attach p c).parentOf e = l.parentOf e) ∧
      (∀ q, (l.attach p c).childrenOf q =
        if q = p then l.childrenOf p ++ [c] else l.childrenOf q) ∧
      ((l.attach p c).Paired ↔ l.parentOf c = none)) ∧
    ∀ changes : List Change,
      (∀ before, before <+: changes → (l.run before).QueuesOwn) ↔
        ∀ before change, before ++ [change] <+: changes → ¬ (l.run before).Moves change := by
  refine ⟨fun p c => ⟨?_, fun e other => ?_, l.childrenOfAttach p c, paired.attachIff p c⟩,
    Agree.runOwn paired.agree⟩
  · rw [parentOfAttach, if_pos rfl]
  · rw [parentOfAttach, if_neg other]

theorem secondParentListsToo :
    let l : Links := Links.attach {} ⟨1⟩ ⟨3⟩
    l.Paired ∧ (l.attach ⟨1⟩ ⟨4⟩).Paired ∧ ¬ (l.attach ⟨2⟩ ⟨3⟩).Paired ∧
      (l.attach ⟨2⟩ ⟨3⟩).childrenOf ⟨1⟩ = [⟨3⟩] := by
  have paired : (Links.attach {} ⟨1⟩ ⟨3⟩).Paired := pairedEmpty.attach rfl ⟨1⟩
  obtain ⟨attaching, -⟩ := pairedUnlessReattached paired
  refine ⟨paired, (attaching ⟨1⟩ ⟨4⟩).2.2.2.mpr rfl, fun kept => ?_, (attaching ⟨2⟩ ⟨3⟩).2.2.1 ⟨1⟩⟩
  exact absurd ((attaching ⟨2⟩ ⟨3⟩).2.2.2.mp kept) (by decide)

/-- Attached to 1 and then to 2, entity 3 belongs to 2, and is queued when 1 is destroyed. -/
theorem formerParentQueues :
    let l : Links := Links.run {} [.attach ⟨1⟩ ⟨3⟩, .attach ⟨2⟩ ⟨3⟩]
    Paired {} ∧ l.parentOf ⟨3⟩ = some ⟨2⟩ ∧ l.orphans ⟨1⟩ = [⟨3⟩] ∧
      (l.detach ⟨1⟩).parentOf ⟨3⟩ = none ∧ ¬ l.QueuesOwn ∧ ¬ l.Paired := by
  intro l
  have parent : l.parentOf ⟨3⟩ = some ⟨2⟩ := rfl
  have queued : l.orphans ⟨1⟩ = [⟨3⟩] := rfl
  have other : ¬ l.QueuesOwn := fun own => by
    have former := own ⟨1⟩ ⟨3⟩ (by rw [queued]; exact List.mem_singleton_self _)
    exact absurd (former.symm.trans parent) (by decide)
  exact ⟨pairedEmpty, parent, queued, rfl, other, fun kept => other (Agree.queuesOwn kept.agree)⟩

end EntityFoundry.Links
