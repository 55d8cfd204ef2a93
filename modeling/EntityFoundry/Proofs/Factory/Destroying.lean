import EntityFoundry.Proofs.Factory.Calls
import EntityFoundry.Proofs.Factory.Invariants
import Mathlib.Data.List.Basic
/-! What destroying one entity does. Each attached system is called once and forgets it, and its
children are queued; nothing else changes. This is where the systems of the program are attached
and those from outside queue nothing. -/
namespace EntityFoundry

def Probe.Idle (p : Probe) : Prop := ∀ memory e, p.release memory e = []

namespace Factory

def released (f : Factory) (e : Entity) (s : SystemId) : List Entity :=
  match f.systems.get? s with
  | some state => s.queues e state
  | none => []

structure Parted (e : Entity) (ss : List SystemId) (f g : Factory) : Prop where
  systems : ∀ s, g.systems.get? s =
    if s ∈ ss then (f.systems.get? s).map (s.told (.destroy s e)) else f.systems.get? s
  queue : g.queue = f.queue ++ ss.flatMap (f.released e)
  calls : g.calls = f.calls ++ ss.map (.destroy · e)
  rest : g = { f with systems := g.systems, queue := g.queue, journal := g.journal }

theorem partedOne {f : Factory} {s : SystemId} (held : f.systems.contains s = true) (e : Entity) :
    Parted e [s] f (destroyIn e f s) := by
  obtain ⟨state, found⟩ := Option.isSome_iff_exists.mp held
  have step : destroyIn e f s =
      { f.tell (.destroy s e) with queue := f.queue ++ s.queues e state } := by
    simp only [destroyIn, found]
  rw [step]
  refine ⟨fun t => ?_, ?_, callsTell f _, rfl⟩
  · change (f.systems.told (.destroy s e)).get? t = _
    rw [Systems.getTold]
    by_cases same : t = s
    · subst same
      simp [Call.system?]
    · have other : ¬ s = t := fun h => same h.symm
      simp [Call.system?, same, other]
  · simp [released, found]

theorem Parted.trans {e : Entity} {s : SystemId} {ss : List SystemId} {f g h : Factory}
    (first : Parted e [s] f g) (absent : s ∉ ss) (second : Parted e ss g h) :
    Parted e (s :: ss) f h := by
  have kept (t : SystemId) (other : t ≠ s) : g.systems.get? t = f.systems.get? t := by
    simp [first.systems, other]
  have released : ss.flatMap (g.released e) = ss.flatMap (f.released e) := by
    refine List.flatMap_congr fun t member => ?_
    simp only [Factory.released, kept t fun same => absent (same ▸ member)]
  refine ⟨fun t => ?_, ?_, ?_, ?_⟩
  · rw [second.systems]
    by_cases same : t = s
    · subst same
      simp [absent, first.systems]
    · simp [same, kept t same]
  · rw [second.queue, first.queue, released]
    simp
  · rw [second.calls, first.calls]
    simp
  · exact second.rest.trans (congrArg
      (fun k => { k with systems := h.systems, queue := h.queue, journal := h.journal }) first.rest)

theorem partedAll {f : Factory} {ss : List SystemId} (unique : ss.Nodup)
    (held : ∀ s ∈ ss, f.systems.contains s = true) (e : Entity) :
    Parted e ss f (ss.foldl (destroyIn e) f) := by
  induction ss generalizing f with
  | nil => exact ⟨fun s => by simp, by simp, by simp, rfl⟩
  | cons s ss ih =>
    obtain ⟨absent, unique⟩ := List.nodup_cons.mp unique
    have first := partedOne (held s (by simp)) e
    have later (t : SystemId) (member : t ∈ ss) :
        (destroyIn e f s).systems.contains t = true :=
      (Moves.destroyIn e f s).contains (held t (by simp [member]))
    exact first.trans absent (ih unique later)

theorem flatMapOnly {α β : Type} {x : α} {xs : List α} {f : α → List β} (unique : xs.Nodup)
    (member : x ∈ xs) (others : ∀ y, y ≠ x → f y = []) : xs.flatMap f = f x := by
  obtain ⟨before, after, rfl⟩ := List.append_of_mem member
  have split := List.nodup_append.mp unique
  have none (ys : List α) (absent : x ∉ ys) : ys.flatMap f = [] :=
    List.flatMap_eq_nil_iff.mpr fun y inside => others y fun same => absent (same ▸ inside)
  have left : x ∉ before := fun inside => split.2.2 x inside x (by simp) rfl
  have right : x ∉ after := (List.nodup_cons.mp split.2.1).1
  rw [List.flatMap_append, List.flatMap_cons, none before left, none after right]
  simp

structure Tended (f : Factory) : Prop where
  seated : f.Seated
  idle : f.systems.Probes Probe.Idle
  hierarchy : SystemId.hierarchy ∈ f.attached

namespace Tended
variable {f : Factory} (tended : f.Tended)
include tended

theorem requeue (queue : List Entity) : { f with queue := queue }.Tended :=
  ⟨⟨tended.seated.seats, tended.seated.held⟩, tended.idle, tended.hierarchy⟩

theorem note (n : Notice) : (f.note n).Tended :=
  ⟨⟨tended.seated.seats, tended.seated.held⟩, tended.idle, tended.hierarchy⟩

theorem heldLinks : f.systems.get? .hierarchy = some f.links := by
  obtain ⟨l, found⟩ := Option.isSome_iff_exists.mp (tended.seated.held _ tended.hierarchy)
  rw [links, found]
  rfl

theorem released (e : Entity) : f.attached.flatMap (f.released e) = f.links.orphans e := by
  have others (s : SystemId) (other : s ≠ .hierarchy) : f.released e s = [] := by
    unfold Factory.released
    cases held : f.systems.get? s with
    | none => rfl
    | some state =>
      cases s with
      | hierarchy => exact absurd rfl other
      | probe label => exact tended.idle label state held _ e
      | names | healths | transforms | plain => rfl
  rw [flatMapOnly tended.seated.unique tended.hierarchy others]
  simp only [Factory.released, tended.heldLinks]
  rfl

theorem parted (e : Entity) : Parted e f.attached f (f.attached.foldl (destroyIn e) f) :=
  partedAll tended.seated.unique tended.seated.held e

theorem queueDestroy (e : Entity) : (f.destroy e).queue = f.queue ++ f.links.orphans e :=
  (tended.parted e).queue.trans (congrArg _ (tended.released e))

theorem callsDestroy (e : Entity) :
    (f.destroy e).calls = f.calls ++ f.attached.map (.destroy · e) := by
  have parted := (tended.parted e).calls
  unfold destroy
  rw [callsNote]
  exact parted

theorem attachedDestroy (e : Entity) : (f.destroy e).attached = f.attached := by
  have parted := congrArg Factory.attached (tended.parted e).rest
  exact parted

theorem stateDestroy (e : Entity) {s : SystemId} (member : s ∈ f.attached) :
    (f.destroy e).systems.get? s = (f.systems.get? s).map (s.told (.destroy s e)) :=
  ((tended.parted e).systems s).trans (if_pos member)

theorem linksDestroy (e : Entity) : (f.destroy e).links = f.links.detach e := by
  have state := tended.stateDestroy e tended.hierarchy
  rw [tended.heldLinks] at state
  unfold links
  rw [state]
  rfl

theorem destroy (e : Entity) : (f.destroy e).Tended := by
  refine ⟨(Moves.destroy f e).seated tended.seated, fun label p found => ?_, ?_⟩
  · have state := ((tended.parted e).systems (.probe label)).symm.trans found
    split at state
    · obtain ⟨before, held, told⟩ := Option.map_eq_some_iff.mp state
      rw [SystemId.toldProbe] at told
      exact told ▸ tended.idle label before held
    · exact tended.idle label p state
  · rw [tended.attachedDestroy]
    exact tended.hierarchy

end Tended

structure Ready (f : Factory) : Prop where
  seated : f.Seated
  paired : f.links.Paired
  idle : f.systems.Probes Probe.Idle
  attached : ∀ s ∈ [SystemId.names, .healths, .transforms, .hierarchy], s ∈ f.attached

namespace Ready
variable {f : Factory} (ready : f.Ready)
include ready

theorem tended : f.Tended := ⟨ready.seated, ready.idle, ready.attached .hierarchy (by simp)⟩

theorem requeue (queue : List Entity) : { f with queue := queue }.Ready :=
  ⟨⟨ready.seated.seats, ready.seated.held⟩, ready.paired, ready.idle, ready.attached⟩

theorem note (n : Notice) : (f.note n).Ready :=
  ⟨⟨ready.seated.seats, ready.seated.held⟩, ready.paired, ready.idle, ready.attached⟩

theorem blueprintNamesDestroy (e d : Entity) :
    (f.destroy e).blueprintNames.get? d = if d = e then none else f.blueprintNames.get? d := by
  have names := congrArg Factory.blueprintNames (ready.tended.parted e).rest
  exact (congrArg (fun n : Dict Entity String => (n.erase e).get? d) names).trans
    (Dict.getErase f.blueprintNames e d)

theorem nameOfDestroy (e d : Entity) :
    (f.destroy e).systems.nameOf d = if d = e then none else f.systems.nameOf d := by
  unfold Systems.nameOf
  rw [ready.tended.stateDestroy e (ready.attached .names (by simp))]
  cases f.systems.get? .names with
  | none => simp
  | some names => exact Dict.getErase names e d

theorem healthOfDestroy (e d : Entity) :
    (f.destroy e).systems.healthOf d = if d = e then none else f.systems.healthOf d := by
  unfold Systems.healthOf
  rw [ready.tended.stateDestroy e (ready.attached .healths (by simp))]
  cases f.systems.get? .healths with
  | none => simp
  | some h => exact Dict.getErase h.healths e d

theorem transformOfDestroy (e d : Entity) :
    (f.destroy e).systems.transformOf d = if d = e then none else f.systems.transformOf d := by
  unfold Systems.transformOf
  rw [ready.tended.stateDestroy e (ready.attached .transforms (by simp))]
  cases f.systems.get? .transforms with
  | none => simp
  | some transforms => exact Dict.getErase transforms e d

theorem destroy (e : Entity) : (f.destroy e).Ready := by
  have after := ready.tended.destroy e
  refine ⟨after.seated, ?_, after.idle, ?_⟩
  · rw [ready.tended.linksDestroy]
    exact ready.paired.detach e
  · rw [ready.tended.attachedDestroy]
    exact ready.attached

end Ready
end Factory
end EntityFoundry
