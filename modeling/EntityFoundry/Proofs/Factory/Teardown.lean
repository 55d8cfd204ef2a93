import EntityFoundry.Proofs.Factory.Destroying
import EntityFoundry.Proofs.Factory.Mirror
import Mathlib.Logic.Function.Iterate
/-! Tearing a tree down again. Its entities were numbered from top to bottom, one branch after
another; the queue takes them level by level. In every round the queue is a level, none of which has
a parent any more, and what the round queues is the level below. -/
namespace EntityFoundry

namespace Links
variable {l : Links} {e : Entity} (orphan : l.parentOf e = none)
include orphan

theorem leaveOrphan : l.leaveParent e = l := by
  unfold leaveParent
  rw [orphan]

theorem orphansOfOrphan : l.orphans e = l.childrenOf e := by
  rw [orphans, leaveOrphan orphan]

theorem childrenOfDetached (p : Entity) :
    (l.detach e).childrenOf p = if p = e then [] else l.childrenOf p := by
  simp only [detach, leaveOrphan orphan, childrenOf, Dict.getErase]
  split <;> rfl

theorem parentOfDetached (c : Entity) :
    (l.detach e).parentOf c = if c ∈ l.childrenOf e then none else l.parentOf c := by
  simp only [detach, leaveOrphan orphan]
  exact Dict.getEraseAll _ _ _

end Links

namespace Factory
open Entity (nth numbered)

structure Cleared (f g : Factory) (es : List Entity) : Prop where
  tended : g.Tended
  attached : g.attached = f.attached
  queue : g.queue = f.queue ++ es.flatMap f.links.childrenOf
  calls : g.calls = f.calls ++ es.flatMap fun e => f.attached.map (.destroy · e)
  childrenOf : ∀ p, p ∉ es → g.links.childrenOf p = f.links.childrenOf p
  parentOf : ∀ c, g.links.parentOf c =
    if c ∈ es.flatMap f.links.childrenOf then none else f.links.parentOf c

theorem destroyAllCleared {f : Factory} {es : List Entity} (tended : f.Tended)
    (unique : es.Nodup) (orphaned : ∀ e ∈ es, f.links.parentOf e = none) :
    Cleared f (es.foldl destroy f) es := by
  induction es generalizing f with
  | nil => exact ⟨tended, rfl, by simp, by simp, fun _ _ => rfl, fun c => by simp⟩
  | cons e es ih =>
    obtain ⟨once, unique⟩ := List.nodup_cons.mp unique
    have orphan := orphaned e (by simp)
    have children (p : Entity) : (f.destroy e).links.childrenOf p =
        if p = e then [] else f.links.childrenOf p := by
      rw [tended.linksDestroy, Links.childrenOfDetached orphan]
    have parent (c : Entity) : (f.destroy e).links.parentOf c =
        if c ∈ f.links.childrenOf e then none else f.links.parentOf c := by
      rw [tended.linksDestroy, Links.parentOfDetached orphan]
    have rest := ih (tended.destroy e) unique fun d member => by
      rw [parent, orphaned d (by simp [member]), ite_self]
    -- Only its own list is emptied: `e` has no parent to be taken from.
    have later : es.flatMap (f.destroy e).links.childrenOf = es.flatMap f.links.childrenOf := by
      refine List.flatMap_congr fun d member => ?_
      rw [children, if_neg fun (same : d = e) => once (same ▸ member)]
    refine ⟨rest.tended, rest.attached.trans (tended.attachedDestroy e), ?_, ?_, fun p other => ?_,
      fun c => ?_⟩
    · rw [List.foldl_cons, rest.queue, later, tended.queueDestroy, Links.orphansOfOrphan orphan,
        List.flatMap_cons, List.append_assoc]
    · rw [List.foldl_cons, rest.calls, tended.callsDestroy, tended.attachedDestroy,
        List.flatMap_cons, List.append_assoc]
    · obtain ⟨different, outside⟩ := List.mem_cons.not.mp other |> not_or.mp
      rw [List.foldl_cons, rest.childrenOf p outside, children, if_neg different]
    · rw [List.foldl_cons, rest.parentOf, later, parent, List.flatMap_cons]
      by_cases own : c ∈ f.links.childrenOf e <;> simp [own]

theorem Cleared.note {f g : Factory} {es : List Entity} (cleared : Cleared f g es) (n : Notice) :
    Cleared f (g.note n) es :=
  ⟨cleared.tended.note n, cleared.attached, cleared.queue, (callsNote g n).trans cleared.calls,
    cleared.childrenOf, cleared.parentOf⟩

theorem destroyQueuedCleared {f : Factory} (tended : f.Tended) (unique : f.queue.Nodup)
    (orphaned : ∀ e ∈ f.queue, f.links.parentOf e = none) :
    Cleared { f with queue := [] } f.destroyQueued f.queue := by
  have cleared := destroyAllCleared (tended.requeue []) unique orphaned
  cases waiting : f.queue with
  | nil =>
    have unqueued : { f with queue := [] } = f := by rw [← waiting]
    have rested : f.destroyQueued = f := by rw [destroyQueued, waiting]
    rw [waiting, unqueued] at cleared
    rw [unqueued, rested]
    exact cleared
  | cons e es =>
    have round : f.destroyQueued =
        (f.queue.foldl destroy { f with queue := [] }).note (.queueDestroyed f.queue.length) := by
      rw [destroyQueued, waiting]
    rw [← waiting, round]
    exact cleared.note _

structure Sinking (f : Factory) (levels : Nat → List Entity) (n : Nat) (g : Factory) : Prop where
  tended : g.Tended
  attached : g.attached = f.attached
  queue : g.queue = levels n
  calls : g.calls = f.calls ++
    ((List.range n).flatMap levels).flatMap fun e => f.attached.map (.destroy · e)
  childrenOf : ∀ p, p ∉ (List.range n).flatMap levels →
    g.links.childrenOf p = f.links.childrenOf p
  orphaned : ∀ e ∈ levels n, g.links.parentOf e = none

section Rounds
variable {f g : Factory} {levels : Nat → List Entity}
  (next : ∀ n, levels (n + 1) = (levels n).flatMap f.links.childrenOf)
  (unique : ∀ n, ((List.range n).flatMap levels).Nodup)
include next unique

theorem Sinking.round {n : Nat} (sinking : Sinking f levels n g) :
    Sinking f levels (n + 1) g.destroyQueued := by
  have rounds :
      (List.range (n + 1)).flatMap levels = (List.range n).flatMap levels ++ levels n := by
    rw [List.range_succ, List.flatMap_append, List.flatMap_singleton]
  have apart := List.nodup_append.mp (rounds ▸ unique (n + 1))
  have cleared : Cleared { g with queue := [] } g.destroyQueued (levels n) :=
    sinking.queue ▸ destroyQueuedCleared sinking.tended (sinking.queue ▸ apart.2.1)
      (sinking.queue ▸ sinking.orphaned)
  have own : (levels n).flatMap g.links.childrenOf = levels (n + 1) := by
    rw [next]
    refine List.flatMap_congr fun e member => ?_
    exact sinking.childrenOf e fun past => apart.2.2 e past e member rfl
  refine ⟨cleared.tended, cleared.attached.trans sinking.attached, cleared.queue.trans own, ?_,
    fun p outside => ?_, fun e member => ?_⟩
  · refine cleared.calls.trans ?_
    change g.calls ++ (levels n).flatMap (fun e => g.attached.map (.destroy · e)) = _
    rw [sinking.calls, sinking.attached, rounds, List.flatMap_append, List.append_assoc]
  · rw [rounds, List.mem_append, not_or] at outside
    exact (cleared.childrenOf p outside.2).trans (sinking.childrenOf p outside.1)
  · refine (cleared.parentOf e).trans (if_pos ?_)
    rw [← own] at member
    exact member

theorem Sinking.rounds (start : Sinking f levels 0 f) (n : Nat) :
    Sinking f levels n (destroyQueued^[n] f) := by
  induction n with
  | zero => exact start
  | succ n ih =>
    rw [Function.iterate_succ_apply']
    exact ih.round next unique

end Rounds

/-! Creating a tree and then destroying its root. -/

theorem Tended.grown {f g : Factory} {n : Nat} {cs : List Call} {kin : List (Entity × Entity)}
    (tended : f.Tended) (seated : g.Seated) (grown : Grown f g n cs kin) : g.Tended := by
  refine ⟨seated, fun label p found => ?_, ?_⟩
  · have idle := tended.idle.toldAll (fun _ _ idle => idle) cs
    exact idle label p ((grown.systems.states (.probe label) (by simp)).trans found)
  · rw [grown.rest]
    exact tended.hierarchy

theorem Grounded.create {f : Factory} (grounded : f.Grounded) : f.create.2.Grounded := by
  refine ⟨fun c p found => ?_, fun p c member => ?_⟩
  · obtain ⟨child, parent⟩ := grounded.parents c p found
    exact ⟨Nat.le_succ_of_le child, Nat.le_succ_of_le parent⟩
  · obtain ⟨child, parent⟩ := grounded.children p c member
    exact ⟨Nat.le_succ_of_le child, Nat.le_succ_of_le parent⟩

structure Planted (f g : Factory) (k : Nat) (t : Tree) : Prop where
  tended : g.Tended
  attached : g.attached = f.attached
  queue : g.queue = f.queue
  families : ∀ family ∈ t.families (nth k) (k + 1), g.links.childrenOf family.1 = family.2
  orphan : g.links.parentOf (nth k) = none

theorem buildPlanted (t : Tree) {f : Factory} (tended : f.Tended) (hook : f.hook = .attaching)
    (grounded : f.Grounded) (room : f.counter.issued + t.nodeCount < UInt64.size) :
    Planted f (build f.create.1 t f.create.2) (f.counter.issued + 1) t := by
  have count := t.nodeCountChildren
  have number : f.create.1.id.toNat = f.counter.issued + 1 := Entity.nthNumber (by omega)
  have fresh : f.counter.issued < f.create.1.id.toNat := by omega
  have held := tended.seated.held _ tended.hierarchy
  have grown := (Grown.create f).trans <| buildGrown t f.create.1 (f := f.create.2) (.inr hook) rfl
    (Nat.succ_pos _) (show f.counter.issued + 1 + 1 + _ ≤ _ by omega)
  have mirrored := buildMirrored t (f := f.create.2) ⟨held, hook⟩ grounded.create
    (Nat.le_of_eq number) (show f.counter.issued + 1 + _ < _ by omega)
  have outside :
      f.create.1 ∉ numbered (f.counter.issued + 1 + 1) (Tree.forestCount t.children) := by
    rw [Entity.memNumbered (by omega)]
    omega
  have seated := (Moves.createWithTree f t).seated tended.seated
  have attached := congrArg Factory.attached grown.rest
  have queue := congrArg Factory.queue grown.rest
  refine ⟨tended.grown seated grown, attached, queue, ?_, ?_⟩
  · have root : (build f.create.1 t f.create.2).links.childrenOf f.create.1 = _ :=
      mirrored.root.trans (congrArg (· ++ _) (grounded.childless fresh))
    have below := mirrored.below
    obtain ⟨b, ts⟩ := t
    rw [Tree.families]
    exact List.forall_mem_cons.mpr ⟨root, below⟩
  · exact (mirrored.parentsKept _ outside).trans (grounded.orphan fresh)

/-- A tree that was created comes down level by level once its root is queued. The queue holds the
next level after each round and is empty after as many as the tree is high; by then each of the
tree's entities, and no other, was destroyed once. -/
theorem createWithTreeTeardown (f : Factory) (t : Tree) (tended : f.Tended)
    (hook : f.hook = .attaching) (idle : f.queue = []) (grounded : f.Grounded)
    (room : f.counter.issued + t.nodeCount < UInt64.size) :
    let k := f.counter.issued + 1
    let made := f.createWithTree t
    let g := made.2.queueForDestruction made.1
    let order := t.levelOrder (nth k) (k + 1)
    made.1 = nth k ∧ order.Perm (numbered k t.nodeCount) ∧ order.Nodup ∧
      (∀ n, (destroyQueued^[n] g).queue = t.level (nth k) (k + 1) n) ∧
      (∀ n, (destroyQueued^[n] g).queue = [] ↔ t.height ≤ n) ∧
      (destroyQueued^[t.height] g).calls =
        g.calls ++ order.flatMap fun e => f.attached.map (.destroy · e) := by
  intro k made g order
  have planted : Planted f made.2 k t := buildPlanted t tended hook grounded room
  have perm : order.Perm (numbered k t.nodeCount) := by
    rw [t.nodeCountChildren, Entity.numberedNext]
    exact t.levelOrderPerm (nth k) (k + 1)
  have unique : order.Nodup := perm.nodup_iff.mpr (Entity.numberedNodup (by omega))
  have levels (n : Nat) : ((List.range n).flatMap (t.level (nth k) (k + 1))).Nodup := by
    have past := t.levelsPast (nth k) (k + 1) (Nat.le_add_left t.height n)
    rw [List.range_add, List.flatMap_append] at past
    exact (List.nodup_append.mp ((congrArg List.Nodup past).mpr unique)).1
  have root : g.queue = t.level (nth k) (k + 1) 0 := by
    rw [Tree.level]
    exact congrArg (· ++ [made.1]) (planted.queue.trans idle)
  have start : Sinking g (t.level (nth k) (k + 1)) 0 g := by
    refine ⟨planted.tended.requeue _, rfl, root, by simp, fun _ _ => rfl, fun e member => ?_⟩
    rw [Tree.level, List.mem_singleton] at member
    exact member ▸ planted.orphan
  have sunk := start.rounds (t.levelNext planted.families) levels
  refine ⟨rfl, perm, unique, fun n => (sunk n).queue, fun n => ?_, ?_⟩
  · rw [(sunk n).queue]
    exact t.levelEmpty (nth k) (k + 1) n
  · have calls := (sunk t.height).calls
    rw [show g.attached = f.attached from planted.attached] at calls
    exact calls

theorem secondCartTeardown :
    let wheel : Tree := .leaf [.ofValue .name "wheel"]
    let cart : Tree := .node [.ofValue .name "cart"] [.node [] [wheel, wheel], wheel]
    let ops : List Op := [.createSystem .names {}, .createSystem .hierarchy {},
      .setHook .attaching, .createWithTree cart]
    let f : Factory := (initial {} (.memory {} 0)).run ops
    let made := f.createWithTree cart
    let g := made.2.queueForDestruction made.1
    f.Tended ∧ f.Grounded ∧ f.counter.issued = 5 ∧ made.1 = ⟨6⟩ ∧
      (destroyQueued^[1] g).queue = [⟨7⟩, ⟨10⟩] ∧ (destroyQueued^[2] g).queue = [⟨8⟩, ⟨9⟩] ∧
      (destroyQueued^[3] g).queue = [] ∧
      (destroyQueued^[3] g).calls = g.calls ++ [⟨6⟩, ⟨7⟩, ⟨10⟩, ⟨8⟩, ⟨9⟩].flatMap fun e =>
        [.destroy .names e, .destroy .hierarchy e] := by
  intro wheel cart ops f made g
  have issued : f.counter.issued = 5 := by decide +kernel
  have attached : f.attached = [.names, .hierarchy] := by decide +kernel
  have keys : f.systems.keys = [.names, .hierarchy] := by decide +kernel
  have tended : f.Tended := by
    refine ⟨seatedRun _ _ ops, Systems.Probes.ofEntries fun label probe member => ?_, ?_⟩
    · have key : SystemId.probe label ∈ f.systems.keys :=
        List.mem_map_of_mem (f := Sigma.fst) member
      simp [keys] at key
    · rw [attached]
      decide
  have grounded : f.Grounded := .ofEntries (by decide +kernel) (by decide +kernel)
  obtain ⟨entity, -, -, levels, finished, calls⟩ :=
    createWithTreeTeardown f cart tended (by decide +kernel) (by decide +kernel) grounded
      (by rw [issued]; decide)
  rw [issued] at entity levels calls
  rw [attached] at calls
  exact ⟨tended, grounded, issued, entity, levels 1, levels 2, (finished 3).mpr (by decide), calls⟩

end Factory
end EntityFoundry
