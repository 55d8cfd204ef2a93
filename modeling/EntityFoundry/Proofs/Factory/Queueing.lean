import EntityFoundry.Proofs.Factory.Calls
import EntityFoundry.Proofs.Factory.Steps
import Mathlib.Data.List.Basic
/-! The queue among threads. Whatever comes in between, what the calls that work the queue off have
destroyed and what is queued are together what was pushed, in that order. Such a call destroys what
was queued when it began and nothing else, each entity in every attached system, in turn. -/
namespace EntityFoundry

def Entry.ended? : Entry → Option Entity
  | .notice (.destroyed e) => some e
  | _ => none

namespace Factory

def since (f g : Factory) : List Entry := g.history.drop f.history.length

def endedSince (f g : Factory) : List Entity := (since f g).filterMap Entry.ended?

def callsSince (f g : Factory) : List Call := (since f g).filterMap Entry.call?

def endings (f : Factory) (e : Entity) : List Entry :=
  f.attached.map (fun s => .call (.destroy s e)) ++ [.notice (.destroyed e)]

def round (f : Factory) : List Entry :=
  match f.queue with
  | [] => []
  | queued => queued.flatMap f.endings ++ [.notice (.queueDestroyed queued.length)]

theorem roundRead {α : Type} (read : Entry → Option α)
    (silent : ∀ n, read (.notice (.queueDestroyed n)) = none) (f : Factory) :
    f.round.filterMap read = f.queue.flatMap fun e => (f.endings e).filterMap read := by
  unfold round
  cases f.queue with
  | nil => rfl
  | cons e es =>
    rw [List.filterMap_append, List.filterMap_cons_none (silent _), List.filterMap_nil,
      List.append_nil, List.filterMap_flatMap]

theorem roundEnded (f : Factory) : f.round.filterMap Entry.ended? = f.queue := by
  have each (e : Entity) : (f.endings e).filterMap Entry.ended? = [e] := by
    have calls : (f.attached.map fun s => Entry.call (.destroy s e)).filterMap Entry.ended? = [] := by
      simp [List.filterMap_map, Function.comp_def, Entry.ended?]
    rw [endings, List.filterMap_append, calls]
    rfl
  simp [roundRead Entry.ended? (fun _ => rfl) f, each]

theorem roundCalls (f : Factory) : f.round.filterMap Entry.call? =
    f.queue.flatMap fun e => f.attached.map (.destroy · e) := by
  have each (e : Entity) :
      (f.endings e).filterMap Entry.call? = f.attached.map (.destroy · e) := by
    have calls : (f.attached.map fun s => Entry.call (.destroy s e)).filterMap Entry.call? =
        f.attached.map (.destroy · e) := by
      simp [List.filterMap_map, Function.comp_def, Entry.call?]
    rw [endings, List.filterMap_append, calls]
    exact List.append_nil _
  simp only [roundRead Entry.call? (fun _ => rfl) f, each]

theorem sinceWritten {f g : Factory} {entries left : List Entry}
    (written : g.history ++ left = f.history ++ entries) : since f g <+: entries := by
  refine ⟨left.drop (f.history.length - g.history.length), ?_⟩
  rw [since, ← List.drop_append, written, List.drop_left]

/-! Tasks. -/

def Task.writes : Task → List Entry
  | .tell s e => [.call (.destroy s e)]
  | .forget e => [.notice (.destroyed e)]
  | .note n => [.notice n]
  | _ => []

def Task.Ends (f : Factory) : Task → Prop
  | .tell s _ => f.systems.contains s = true
  | .forget _ | .note _ | .push _ => True
  | _ => False

theorem historyNote (f : Factory) (n : Notice) : (f.note n).history = f.history ++ [.notice n] :=
  List.reverse_cons

theorem historyTell (f : Factory) (c : Call) : (f.tell c).history = f.history ++ [.call c] :=
  List.reverse_cons

structure Writes (entries : List Entry) (f : Factory) (p : Progress) : Prop where
  written : p.factory.history ++ p.todo.flatMap Task.writes = f.history ++ entries
  held : ∀ s, f.systems.contains s = true → p.factory.systems.contains s = true
  ends : ∀ task ∈ p.todo, task.Ends p.factory

theorem Writes.perform {task : Task} {f : Factory} (ends : task.Ends f) :
    Writes task.writes f (f.perform task) := by
  cases task with
  | tell s e =>
    obtain ⟨state, found⟩ := Option.isSome_iff_exists.mp ends
    have told : f.perform (.tell s e) =
        { factory := f.tell (.destroy s e), todo := (s.queues e state).map .push } := by
      simp only [Factory.perform, found]
    have silent : ((s.queues e state).map Task.push).flatMap Task.writes = [] := by
      simp [List.flatMap_map, Task.writes]
    rw [told]
    refine ⟨?_, fun t held => (Systems.containsTold f.systems _ t).trans held, fun task member => ?_⟩
    · rw [silent, List.append_nil]
      exact historyTell f _
    · obtain ⟨d, -, rfl⟩ := List.mem_map.mp member
      trivial
  | forget e =>
    have written := (List.append_nil _).trans (historyNote f (.destroyed e))
    exact ⟨written, fun _ held => held, List.forall_mem_nil _⟩
  | note n =>
    have written := (List.append_nil _).trans (historyNote f n)
    exact ⟨written, fun _ held => held, List.forall_mem_nil _⟩
  | push e => exact ⟨rfl, fun _ held => held, List.forall_mem_nil _⟩
  | dispatch | child | attach | announce | name => cases ends

theorem Writes.issuing (f : Factory) : Writes [] f (f.issuing fun _ => []) :=
  ⟨rfl, fun _ held => held, List.forall_mem_nil _⟩

theorem Task.Ends.later {task : Task} {f g : Factory} (ends : task.Ends f)
    (held : ∀ s, f.systems.contains s = true → g.systems.contains s = true) : task.Ends g := by
  cases task with
  | tell s e => exact held s ends
  | forget | note | push => trivial
  | dispatch | child | attach | announce | name => cases ends

theorem drainingWrites (f : Factory) : f.startDraining.factory.history ++
    f.startDraining.todo.flatMap Task.writes = f.history ++ f.round := by
  have each (e : Entity) : (f.ending e).flatMap Task.writes = f.endings e := by
    rw [ending, List.flatMap_append, List.flatMap_map]
    exact congrArg (· ++ _) List.map_eq_flatMap.symm
  have all (es : List Entity) :
      (es.flatMap f.ending).flatMap Task.writes = es.flatMap f.endings := by
    rw [List.flatMap_assoc]
    simp only [each]
  unfold startDraining round
  cases f.queue with
  | nil => rfl
  | cons e es =>
    simp only [List.flatMap_append, all]
    rfl

theorem drainingEnds {f : Factory} (seated : f.Seated) :
    ∀ task ∈ f.startDraining.todo, task.Ends f.startDraining.factory := by
  have each (e : Entity) : ∀ task ∈ f.ending e, task.Ends f := by
    intro task member
    rcases List.mem_append.mp member with tell | last
    · obtain ⟨s, attached, rfl⟩ := List.mem_map.mp tell
      exact seated.held s attached
    · rw [List.mem_singleton.mp last]
      trivial
  unfold startDraining
  cases f.queue with
  | nil => exact List.forall_mem_nil _
  | cons e es =>
    intro task member
    rcases List.mem_append.mp member with ending | last
    · obtain ⟨d, -, inside⟩ := List.mem_flatMap.mp ending
      exact (each d task inside).later fun _ held => held
    · rw [List.mem_singleton.mp last]
      trivial

/-! Calls. -/

def Op.destroysQueued : Op → Bool
  | .destroyQueued => true
  | _ => false

theorem Op.leaves (op : Op) (keeps : op ≠ .drainQueue) (other : op ≠ .destroyQueued) :
    op.takes = false ∧ op.destroysQueued = false := by
  cases op with
  | drainQueue => exact absurd rfl keeps
  | destroyQueued => exact absurd rfl other
  | _ => exact ⟨rfl, rfl⟩

namespace Begun

def taken (b : Begun) : List Entity := if b.op.destroysQueued then b.before.queue else []

/-- A call that works the queue off is under way: what it has written and what it has to do make up
the whole round. -/
structure Working (b : Begun) (s : Shared) : Prop where
  seated : b.before.Seated
  written : s.factory.history ++ s.todo.flatMap Task.writes = b.before.history ++ b.before.round
  ends : ∀ task ∈ s.todo, task.Ends s.factory
  pushed : b.pushed = s.done.flatMap (·.1.taken) ++ b.before.queue

structure Finished (b : Begun) (g : Factory) (pushes : List Entity) : Prop where
  seated : b.before.Seated
  written : g.history = b.before.history ++ b.before.round
  left : b.pushed ++ g.queue <+: pushes

end Begun

namespace Shared
variable {s : Shared}

def rounds (s : Shared) : List (Begun × Factory) := s.done.filter (·.1.op.destroysQueued)

def taken (s : Shared) : List Entity := (s.underway.map Begun.taken).getD []

structure Accounted (s : Shared) : Prop where
  seated : s.factory.Seated
  pushed : s.done.flatMap (·.1.taken) ++ s.taken ++ s.factory.queue = s.pushes
  finished : ∀ r ∈ s.done, r.1.op.destroysQueued = true → r.1.Finished r.2 s.pushes
  working : ∀ b, s.underway = some b → b.op.destroysQueued = true → b.Working s

namespace Accounted
variable (accounted : s.Accounted)
include accounted

theorem advance {p : Progress} {rest : List Task} (does : Does (fun _ => True) s.factory p)
    (working : ∀ b, s.underway = some b → b.op.destroysQueued = true → b.Working (s.advance p rest)) :
    (s.advance p rest).Accounted where
  seated := does.seated accounted.seated
  pushed := by
    change _ ++ p.factory.queue = s.pushes ++ p.pushed
    rw [does.queue, ← List.append_assoc]
    exact congrArg (· ++ p.pushed) accounted.pushed
  finished r member drains := by
    obtain ⟨seated, written, left⟩ := accounted.finished r member drains
    exact ⟨seated, written, left.trans (List.prefix_append _ _)⟩
  working := working

theorem workingAfter {p : Progress} {rest : List Task} {entries : List Entry}
    (writes : Writes entries s.factory p)
    (here : s.todo.flatMap Task.writes = entries ++ rest.flatMap Task.writes)
    (among : rest ⊆ s.todo) {b : Begun} (running : s.underway = some b)
    (drains : b.op.destroysQueued = true) : b.Working (s.advance p rest) := by
  obtain ⟨seated, written, ends, pushed⟩ := accounted.working b running drains
  refine ⟨seated, ?_, fun task member => ?_, pushed⟩
  · change p.factory.history ++ (p.todo ++ rest).flatMap Task.writes = _
    rw [List.flatMap_append, ← List.append_assoc, writes.written, List.append_assoc, ← here, written]
  · rcases List.mem_append.mp member with new | old
    · exact writes.ends task new
    · exact (ends task (among old)).later writes.held

theorem finish {b : Begun} (running : s.underway = some b) (rested : s.todo = []) :
    { s with underway := none, done := s.done ++ [(b, s.factory)] }.Accounted := by
  have taken : s.taken = b.taken := by rw [Shared.taken, running]; rfl
  refine ⟨accounted.seated, ?_, fun r member drains => ?_, fun b idle => by cases idle⟩
  · rw [← accounted.pushed, taken]
    simp [Shared.taken]
  · rcases List.mem_append.mp member with before | last
    · exact accounted.finished r before drains
    cases List.mem_singleton.mp last
    obtain ⟨seated, written, -, pushed⟩ := accounted.working b running drains
    rw [rested] at written
    have whole : b.taken = b.before.queue := if_pos drains
    have all : b.pushed ++ s.factory.queue = s.pushes := by
      rw [pushed, ← whole, ← taken, accounted.pushed]
    exact ⟨seated, (List.append_nil _).symm.trans written, all ▸ List.prefix_refl _⟩

theorem idleTaken (free : s.underway = none) :
    s.done.flatMap (·.1.taken) ++ s.factory.queue = s.pushes := by
  have nothing : s.taken = [] := by rw [Shared.taken, free]; rfl
  have conserved := accounted.pushed
  rwa [nothing, List.append_nil] at conserved

theorem beginDraining (free : s.underway = none) : (s.begin .destroyQueued).Accounted := by
  obtain ⟨emptied, -, untouched⟩ := openingTakes s.factory (rfl : Op.takes .destroyQueued = true)
  have pushes : (s.begin .destroyQueued).pushes = s.pushes := by
    change s.pushes ++ (s.factory.opening .destroyQueued).2.pushed = s.pushes
    rw [untouched, List.append_nil]
  refine ⟨?_, ?_, fun r member drains => ?_, fun b running drains => ?_⟩
  · change (s.factory.opening .destroyQueued).2.factory.Seated
    rw [emptied]
    exact accounted.seated.keep rfl rfl fun _ held => held
  · change s.done.flatMap (·.1.taken) ++ s.factory.queue ++
      (s.factory.opening .destroyQueued).2.factory.queue = _
    rw [emptied, List.append_nil, pushes, accounted.idleTaken free]
  · exact pushes ▸ accounted.finished r member drains
  · cases running
    refine ⟨accounted.seated, ?_, fun task member => ?_, (accounted.idleTaken free).symm⟩
    · change _ ++ (s.factory.startDraining.todo ++ []).flatMap Task.writes = _
      rw [List.append_nil]
      exact drainingWrites s.factory
    · exact drainingEnds accounted.seated task ((List.append_nil _).subst member)

theorem begin {op : Op} (free : s.underway = none) (keeps : op ≠ .drainQueue) :
    (s.begin op).Accounted := by
  by_cases drains : op = .destroyQueued
  · subst drains
    exact accounted.beginDraining free
  obtain ⟨leaves, other⟩ := op.leaves keeps drains
  have advanced : (s.advance (s.factory.opening op).2 []).Accounted :=
    accounted.advance (.opening s.factory leaves) fun b running => by simp [free] at running
  refine ⟨advanced.seated, ?_, advanced.finished, fun b running drains => ?_⟩
  · have nothing : (s.begin op).taken = [] := by
      simp [Shared.begin, Shared.taken, Begun.taken, other]
    rw [nothing, List.append_nil]
    exact advanced.idleTaken free
  · cases running
    rw [other] at drains
    cases drains

theorem next {event : Event} {t : Shared} (follows : s.Follows event t)
    (keeps : event ≠ .call .drainQueue) : t.Accounted := by
  cases follows with
  | same => exact accounted
  | push e =>
    refine accounted.advance (.queues e) fun b running drains => ?_
    have ends : (Task.push e).Ends s.factory := trivial
    exact accounted.workingAfter (.perform ends) rfl (List.Subset.refl _) running drains
  | generate =>
    refine accounted.advance (.issuing s.factory _) fun b running drains => ?_
    exact accounted.workingAfter (.issuing s.factory) rfl (List.Subset.refl _) running drains
  | begin op free => exact accounted.begin free fun same => keeps (same ▸ rfl)
  | @task task rest todo =>
    refine accounted.advance (.performAny s.factory task) fun b running drains => ?_
    -- Any task may come up here; that of a call working the queue off is one that ends entities.
    have ends := (accounted.working b running drains).ends task (by simp [todo])
    refine accounted.workingAfter (.perform ends) ?_ ?_ running drains
    · rw [todo, List.flatMap_cons]
    · rw [todo]
      exact List.subset_cons_self task rest
  | done todo running => exact accounted.finish running todo

end Accounted

theorem accountedRun (config : Config) (source : AssetSource) {events : List Event}
    (undrained : Event.call .drainQueue ∉ events) :
    ((idle (initial config source)).run events).Accounted := by
  have start : (idle (initial config source)).Accounted :=
    ⟨seatedRun config source [], rfl, List.forall_mem_nil _, fun _ running => nomatch running⟩
  exact runKeeps (· ≠ .call .drainQueue)
    (fun s t event follows keeps accounted => accounted.next follows keeps)
    (fun event member same => undrained (same ▸ member)) start

theorem roundsTaken (s : Shared) :
    s.rounds.flatMap (·.1.before.queue) = s.done.flatMap (·.1.taken) := by
  unfold rounds
  induction s.done with
  | nil => rfl
  | cons r done ih =>
    cases drains : r.1.op.destroysQueued with
    | true => simp [drains, Begun.taken, ih]
    | false => simp [drains, Begun.taken, ih]

end Shared

theorem queueAccounted (config : Config) (source : AssetSource) (events : List Event)
    (undrained : Event.call .drainQueue ∉ events) :
    let s := (Shared.idle (initial config source)).run events
    s.rounds.flatMap (fun r => endedSince r.1.before r.2) ++ s.taken ++ s.factory.queue = s.pushes ∧
      (∀ r ∈ s.rounds, endedSince r.1.before r.2 = r.1.before.queue ∧
        callsSince r.1.before r.2 =
          r.1.before.queue.flatMap (fun e => r.1.before.attached.map (.destroy · e)) ∧
        r.1.before.attached.Nodup ∧ r.1.pushed ++ r.2.queue <+: s.pushes) ∧
      ∀ b, s.underway = some b → b.op.destroysQueued = true →
        endedSince b.before s.factory <+: s.taken ∧
        callsSince b.before s.factory <+:
          s.taken.flatMap (fun e => b.before.attached.map (.destroy · e)) ∧
        b.before.attached.Nodup := by
  intro s
  have accounted : s.Accounted := Shared.accountedRun config source undrained
  have whole (r : Begun × Factory) (member : r ∈ s.rounds) : r.1.Finished r.2 s.pushes := by
    obtain ⟨done, drains⟩ := List.mem_filter.mp member
    exact accounted.finished r done drains
  have written (r : Begun × Factory) (member : r ∈ s.rounds) :
      since r.1.before r.2 = r.1.before.round := by
    rw [since, (whole r member).written, List.drop_left]
  have ended (r : Begun × Factory) (member : r ∈ s.rounds) :
      endedSince r.1.before r.2 = r.1.before.queue := by
    rw [endedSince, written r member, roundEnded]
  refine ⟨?_, fun r member => ?_, fun b running drains => ?_⟩
  · rw [List.flatMap_congr ended, Shared.roundsTaken]
    exact accounted.pushed
  · have calls : callsSince r.1.before r.2 =
        r.1.before.queue.flatMap fun e => r.1.before.attached.map (.destroy · e) := by
      rw [callsSince, written r member, roundCalls]
    exact ⟨ended r member, calls, (whole r member).seated.unique, (whole r member).left⟩
  · have working := accounted.working b running drains
    have taken : s.taken = b.before.queue := by
      rw [Shared.taken, running]
      exact if_pos drains
    have sofar := sinceWritten working.written
    rw [taken]
    refine ⟨?_, ?_, working.seated.unique⟩
    · rw [← roundEnded]
      exact sofar.filterMap _
    · rw [← roundCalls]
      exact sofar.filterMap _

theorem wheelQueuedMeanwhile :
    let cart : Tree := .node [] [.leaf [], .leaf []]
    let steps (n : Nat) : List Event := List.replicate n .step
    let events : List Event :=
      [.call (.createSystem .names {}), .step, .call (.createSystem .hierarchy {}), .step,
        .call (.setHook .attaching), .step, .call (.createWithTree cart)] ++ steps 10 ++
      [.push ⟨2⟩, .call (.queueForDestruction ⟨1⟩)] ++ steps 2 ++
      [.call .destroyQueued] ++ steps 3 ++ [.push ⟨7⟩] ++ steps 6 ++
      [.call .destroyQueued, .push ⟨8⟩] ++ steps 3
    let s := (Shared.idle (initial {} (.memory {} 0))).run events
    s.pushes = [⟨2⟩, ⟨1⟩, ⟨7⟩, ⟨3⟩, ⟨8⟩] ∧ s.taken = [⟨7⟩, ⟨3⟩] ∧ s.factory.queue = [⟨8⟩] ∧
      s.rounds.map (fun r => r.1.before.queue) = [[⟨2⟩, ⟨1⟩]] ∧ Event.call .drainQueue ∉ events ∧
      s.rounds.flatMap (fun r => endedSince r.1.before r.2) ++ s.taken ++ s.factory.queue =
        s.pushes ∧
      ∀ b, s.underway = some b → b.op.destroysQueued = true →
        endedSince b.before s.factory <+: s.taken := by
  intro cart steps events
  have undrained : Event.call .drainQueue ∉ events := by simp [events, steps]
  obtain ⟨conserved, -, working⟩ := queueAccounted {} (.memory {} 0) events undrained
  refine ⟨by decide +kernel, by decide +kernel, by decide +kernel, by decide +kernel, undrained,
    conserved, fun b running drains => ?_⟩
  exact (working b running drains).1

end Factory
end EntityFoundry
