import EntityFoundry.Proofs.Factory.Steps
import EntityFoundry.Proofs.Families
import EntityFoundry.Proofs.Systems.Lacking
/-! Issuing among threads. Whoever asks, the entities come in the order of their numbers, and what a
call answers is none of those issued before it. As long as they have not come round, nothing is
kept for the invalid entity: what is offered, attached or named has been issued or was found
valid. -/
namespace EntityFoundry

open Entity (numbered)

namespace Counter

theorem issueManyNumbered (c : Counter) (n : Nat) :
    (c.issueMany n).1 = numbered (1 + c.issued) n := by
  rw [numbered, List.range'_eq_map_range, List.map_map, Nat.add_comm]
  refine List.map_congr_left fun i _ => ?_
  exact congrArg Entity.mk (UInt64.ofNat_add _ _).symm

theorem countNumber {c : Counter} (small : c.issued < UInt64.size) : c.count.toNat = c.issued := by
  rw [count, next, UInt64.ofNat_add]
  exact (congrArg UInt64.toNat (UInt64.add_sub_cancel _ 1)).trans (UInt64.toNat_ofNat_of_lt' small)

end Counter

namespace Factory

structure Lacks (f : Factory) (e : Entity) : Prop where
  systems : f.systems.Lack e
  unnamed : f.blueprintNames.get? e = none

theorem Arranges.lacks {offered : Entity → Prop} {f g : Factory} (arranges : Arranges offered f g)
    {e : Entity} (other : ¬ offered e) (lacks : f.Lacks e) : g.Lacks e := by
  refine ⟨?_, arranges.rest.2.2 ▸ lacks.unnamed⟩
  have lack := lacks.systems
  clear lacks
  induction arranges with
  | trans first second ihf ihs => exact ihs (ihf lack)
  | told f about => exact lack.told fun s d r same there => other (there ▸ about s d r same)
  | @registered f s p systems created =>
    refine lack.created ?_ created
    cases s with
    | names | healths | transforms => rfl
    | hierarchy => exact Links.emptyLacks e
    | plain | probe => trivial
  | damaged hurt => exact lack.damaged hurt
  | @placed f s held =>
    unfold place
    split <;> exact lack
  | refl | note | routed | adjusted => exact lack

theorem Does.lacks {f : Factory} {p : Progress} (does : Does (·.isValid = true) f p)
    (lacks : f.Lacks .invalid) : p.factory.Lacks .invalid := by
  cases does with
  | arranges n after => exact after.lacks (by decide) ⟨lacks.systems, lacks.unnamed⟩
  | @attaches parent child allowed =>
    simp only [attachChild]
    split
    next valid =>
      exact ⟨lacks.systems.attach (of_decide_eq_true allowed) (of_decide_eq_true valid), lacks.unnamed⟩
    next => exact lacks
  | @names e allowed name n =>
    refine ⟨lacks.systems, ?_⟩
    have other : Entity.invalid ≠ e := (of_decide_eq_true allowed).symm
    change (f.blueprintNames.insert e name).get? .invalid = none
    rw [Dict.getInsert, if_neg other]
    exact lacks.unnamed
  | forgets e n =>
    refine ⟨lacks.systems, ?_⟩
    change (f.blueprintNames.erase e).get? .invalid = none
    rw [Dict.getErase, lacks.unnamed, ite_self]
  | queues e => exact ⟨lacks.systems, lacks.unnamed⟩

theorem Does.counted {offered : Entity → Prop} {f : Factory} {p : Progress}
    (does : Does offered f p) :
    numbered 1 p.factory.counter.issued = numbered 1 f.counter.issued ++ p.issued := by
  cases does with
  | @arranges n g tasks after =>
    change numbered 1 g.counter.issued = _ ++ (f.counter.issueMany n).1
    rw [after.rest.1, Counter.issueManyNumbered, Entity.numberedAppend]
    rfl
  | attaches =>
    rw [Moves.attachCounter, List.append_nil]
  | names | forgets | queues => exact (List.append_nil _).symm

/-! Answers. -/

def Op.creates : Op → Bool
  | .create | .createNamed _ | .createWithBlueprint _ | .createWithTree _ => true
  | .createFromData .. | .tryCreateFromData .. => true
  | _ => false

theorem startNamedAnswer (f : Factory) (e : Entity) (name : String) :
    (f.startNamed e name).1 = e ∨ (f.startNamed e name).1 = .invalid := by
  unfold startNamed
  cases f.preparingNamed e name with
  | mk result g =>
    cases result with
    | ok tasks => exact .inl rfl
    | error error => exact .inr rfl

theorem startFromDataAnswer (f : Factory) (data : Bytes) (name : String)
    (failing : FactoryError → Factory → Factory) :
    (f.startFromData data name failing).1 = some f.create.1 ∨
      (f.startFromData data name failing).1 = none := by
  unfold startFromData
  split
  · exact .inr rfl
  · cases made : f.create.2.preparing f.create.1 name data with
    | mk result g =>
      simp only [made]
      cases result with
      | ok tasks => exact .inl rfl
      | error error => exact .inr rfl

theorem openingAnswer (f : Factory) {op : Op} (creates : op.creates = true) {e : Entity}
    (answered : (f.opening op).1 = some e) (valid : e.isValid = true) : e = f.create.1 := by
  cases op with
  | create | createWithBlueprint b | createWithTree t => exact (Option.some.inj answered).symm
  | createNamed name =>
    obtain rfl : (f.create.2.startNamed f.create.1 name).1 = e := Option.some.inj answered
    rcases startNamedAnswer f.create.2 f.create.1 name with same | failed
    · exact same
    · rw [failed] at valid
      cases valid
  | createFromData data name =>
    let failing error f := note f (.creationFailed .invalid name error)
    obtain rfl : (f.startFromData data name failing).1.getD .invalid = e :=
      Option.some.inj answered
    rcases startFromDataAnswer f data name failing with made | failed
    · rw [made]
      rfl
    · rw [failed] at valid
      cases valid
  | tryCreateFromData data name =>
    rcases startFromDataAnswer f data name fun _ f => f with made | failed
    · exact Option.some.inj (answered.symm.trans made)
    · cases answered.symm.trans failed
  | _ => cases creates

/-! Tasks. -/

section Offering
variable {offered : Entity → Prop}

theorem buildingOffers {e : Entity} (allowed : offered e) (t : Tree) :
    ∀ task ∈ building e t, task.Offers offered := by
  intro task member
  rcases List.mem_cons.mp member with rfl | child
  · exact allowed
  · obtain ⟨u, -, rfl⟩ := List.mem_map.mp child
    exact allowed

theorem childOffers {f : Factory} {parent : Entity} (up : offered parent)
    (down : offered f.create.1) (t : Tree) :
    ∀ task ∈ (f.startChild parent t).todo, task.Offers offered := by
  have noted (child : Entity) : ∀ task ∈ [childNoted parent child], task.Offers offered :=
    List.forall_mem_singleton.mpr trivial
  have built := buildingOffers down t
  unfold startChild
  cases f.hook with
  | parentless => exact List.forall_mem_append.mpr ⟨built, noted _⟩
  | attaching =>
    exact List.forall_mem_append.mpr ⟨built, List.forall_mem_cons.mpr ⟨up, noted _⟩⟩
  | scripted style failing calls =>
    by_cases fails : calls ∈ failing
    · simp only [fails, if_true]
      exact noted _
    simp only [fails, if_false]
    cases style with
    | linking => exact List.forall_mem_append.mpr ⟨built, List.forall_mem_cons.mpr ⟨trivial, noted _⟩⟩
    | populating =>
      refine List.forall_mem_cons.mpr ⟨trivial, ?_⟩
      split
      · exact List.forall_mem_append.mpr ⟨built, noted _⟩
      · exact List.forall_mem_cons.mpr ⟨trivial, noted _⟩
    | shallow => exact List.forall_mem_cons.mpr ⟨down, List.forall_mem_cons.mpr ⟨trivial, noted _⟩⟩

theorem performOffers {f : Factory} {task : Task} (allowed : task.Offers offered)
    (made : offered f.create.1) : ∀ later ∈ (f.perform task).todo, later.Offers offered := by
  cases task with
  | child parent t => exact childOffers allowed made t
  | tell s e =>
    unfold perform
    cases held : f.systems.get? s with
    | none =>
      simp only [held]
      exact List.forall_mem_nil _
    | some state =>
      simp only [held]
      exact List.forall_mem_map.mpr fun _ _ => trivial
  | dispatch | attach | announce | note | name | push | forget => exact List.forall_mem_nil _

theorem preparingOffers {f : Factory} {e : Entity} (allowed : offered e) {name : String} {data : Bytes}
    {tasks : List Task} (prepared : (f.preparing e name data).1 = .ok tasks) :
    ∀ task ∈ tasks, task.Offers offered := by
  unfold preparing at prepared
  cases found : f.loader with
  | none => simp [found] at prepared
  | some schema =>
    cases read : schema.load f.types data with
    | error error => simp [found, read] at prepared
    | ok loaded =>
      simp only [found, read, Except.ok.injEq] at prepared
      subst prepared
      exact List.forall_mem_append.mpr
        ⟨buildingOffers allowed _, List.forall_mem_singleton.mpr allowed⟩

theorem startNamedOffers {f : Factory} {e : Entity} (allowed : e.isValid = true → offered e)
    (name : String) : ∀ task ∈ (f.startNamed e name).2.1, task.Offers offered := by
  have prepared {tasks : List Task} (done : (f.preparingNamed e name).1 = .ok tasks) :
      ∀ task ∈ tasks, task.Offers offered := by
    unfold preparingNamed at done
    split at done
    · cases done
    next valid =>
    split at done
    · cases done
    cases read : f.blueprintAsset name with
    | mk result g =>
      rw [read] at done
      cases result with
      | error error => cases done
      | ok data => exact preparingOffers (allowed (by simpa using valid)) done
  unfold startNamed
  cases made : f.preparingNamed e name with
  | mk result g =>
    cases result with
    | error error => exact List.forall_mem_nil _
    | ok tasks => exact prepared (by rw [made])

theorem startFromDataOffers {f : Factory} (made : offered f.create.1) (data : Bytes) (name : String)
    (failing : FactoryError → Factory → Factory) :
    ∀ task ∈ (f.startFromData data name failing).2.todo, task.Offers offered := by
  unfold startFromData
  split
  · exact List.forall_mem_nil _
  · cases prepared : f.create.2.preparing f.create.1 name data with
    | mk result g =>
      simp only [prepared]
      cases result with
      | error error => exact List.forall_mem_nil _
      | ok tasks => exact preparingOffers made (by rw [prepared])

theorem endingOffers (f : Factory) (e : Entity) : ∀ task ∈ f.ending e, task.Offers offered :=
  List.forall_mem_append.mpr
    ⟨List.forall_mem_map.mpr fun _ _ => trivial, List.forall_mem_singleton.mpr trivial⟩

theorem drainingOffers (f : Factory) : ∀ task ∈ f.startDraining.todo, task.Offers offered := by
  unfold startDraining
  cases f.queue with
  | nil => exact List.forall_mem_nil _
  | cons e es =>
    refine List.forall_mem_append.mpr ⟨fun task member => ?_, List.forall_mem_singleton.mpr trivial⟩
    obtain ⟨d, -, inside⟩ := List.mem_flatMap.mp member
    exact endingOffers f d task inside

theorem openingOffers {f : Factory} (op : Op) (allowed : ∀ e, e.isValid = true → offered e)
    (made : offered f.create.1) : ∀ task ∈ (f.opening op).2.todo, task.Offers offered := by
  cases op with
  | createNamed name => exact startNamedOffers (fun _ => made) name
  | createWithBlueprint b => exact List.forall_mem_singleton.mpr made
  | createWithTree t => exact buildingOffers made t
  | populateNamed e name => exact startNamedOffers (allowed e) name
  | populateWithTree e t =>
    simp only [opening]
    split
    next valid => exact buildingOffers (allowed e valid) t
    next => exact List.forall_mem_nil _
  | createFromData data name => exact startFromDataOffers made data name _
  | tryCreateFromData data name => exact startFromDataOffers made data name _
  | destroy e => exact endingOffers f e
  | queueForDestruction e => exact List.forall_mem_singleton.mpr trivial
  | destroyQueued => exact drainingOffers f
  | _ => exact List.forall_mem_nil _

end Offering

/-! Counting. -/

structure Begun.Fresh (b : Begun) (issues : List Entity) : Prop where
  first : b.issued <+: issues
  numbered : b.issued = Entity.numbered 1 b.issued.length
  answer : b.op.creates = true → ∀ e, b.answer = some e → e.isValid = true →
    e = .nth (1 + b.issued.length)

theorem Begun.Fresh.unissued {b : Begun} {issues : List Entity} (fresh : b.Fresh issues)
    (few : issues.length < UInt64.size - 1) (creates : b.op.creates = true) {e : Entity}
    (answered : b.answer = some e) (valid : e.isValid = true) : e ∉ b.issued := by
  have small : 1 + b.issued.length < UInt64.size := by
    have fewer : b.issued.length ≤ issues.length := fresh.first.length_le
    omega
  have number : e.id.toNat = 1 + b.issued.length := by
    rw [fresh.answer creates e answered valid, Entity.nthNumber small]
  intro member
  rw [fresh.numbered, Entity.memNumbered (Nat.le_of_lt small)] at member
  omega

namespace Shared
variable {s : Shared}

structure Counted (s : Shared) : Prop where
  issues : s.issues = numbered 1 s.factory.counter.issued
  done : ∀ r ∈ s.done, r.1.Fresh s.issues
  underway : ∀ b, s.underway = some b → b.Fresh s.issues

namespace Counted
variable (counted : s.Counted)
include counted

theorem length : s.issues.length = s.factory.counter.issued := by
  rw [counted.issues, numbered, List.length_map, List.length_range']

theorem advance {p : Progress} (rest : List Task)
    (more : numbered 1 p.factory.counter.issued = numbered 1 s.factory.counter.issued ++ p.issued) :
    (s.advance p rest).Counted := by
  have later {b : Begun} (fresh : b.Fresh s.issues) : b.Fresh (s.issues ++ p.issued) :=
    ⟨fresh.first.trans (List.prefix_append _ _), fresh.numbered, fresh.answer⟩
  refine ⟨?_, fun r member => later (counted.done r member),
    fun b running => later (counted.underway b running)⟩
  exact (congrArg (· ++ p.issued) counted.issues).trans more.symm

theorem begin (op : Op) : (s.begin op).Counted := by
  have more : numbered 1 (s.factory.opening op).2.factory.counter.issued =
      numbered 1 s.factory.counter.issued ++ (s.factory.opening op).2.issued := by
    cases takes : op.takes with
    | true =>
      obtain ⟨emptied, none, -⟩ := openingTakes s.factory takes
      rw [emptied, none, List.append_nil]
    | false =>
      have does : Does (fun _ => True) s.factory (s.factory.opening op).2 := .opening s.factory takes
      exact does.counted
  have advanced := counted.advance [] more
  refine ⟨advanced.issues, advanced.done, fun b running => ?_⟩
  cases running
  refine ⟨List.prefix_append _ _, ?_, fun creates e answered valid => ?_⟩
  · rw [counted.length]
    exact counted.issues
  · rw [openingAnswer s.factory creates answered valid, counted.length, Nat.add_comm]
    rfl

theorem next {event : Event} {t : Shared} (follows : s.Follows event t) : t.Counted := by
  cases follows with
  | same => exact counted
  | push e => exact counted.advance s.todo (List.append_nil _).symm
  | generate =>
    have does : Does (fun _ => True) s.factory (s.factory.issuing fun _ => []) := .issuing _ _
    exact counted.advance s.todo does.counted
  | begin op free => exact counted.begin op
  | @task task rest todo =>
    exact counted.advance rest (Does.performAny s.factory task).counted
  | @done b todo running =>
    refine ⟨counted.issues, fun r member => ?_, fun b idle => by cases idle⟩
    rcases List.mem_append.mp member with before | last
    · exact counted.done r before
    · cases List.mem_singleton.mp last
      exact counted.underway b running

end Counted

structure Clear (s : Shared) : Prop where
  lacks : s.factory.Lacks .invalid
  todo : ∀ task ∈ s.todo, task.Offers (·.isValid = true)

namespace Clear
variable (clear : s.Clear) (small : s.factory.counter.issued + 1 < UInt64.size)
include clear small

theorem begin (op : Op) : (s.begin op).Clear := by
  have made : s.factory.create.1.isValid = true := Entity.nthValid (Nat.succ_pos _) small
  have lacks : (s.factory.opening op).2.factory.Lacks .invalid := by
    cases takes : op.takes with
    | true =>
      obtain ⟨emptied, -, -⟩ := openingTakes s.factory takes
      exact emptied ▸ ⟨clear.lacks.systems, clear.lacks.unnamed⟩
    | false => exact (Does.opening s.factory takes).lacks clear.lacks
  refine ⟨lacks, List.forall_mem_append.mpr ⟨?_, List.forall_mem_nil _⟩⟩
  exact openingOffers op (fun _ valid => valid) made

theorem next {event : Event} {t : Shared} (follows : s.Follows event t) : t.Clear := by
  cases follows with
  | same => exact clear
  | push e =>
    have does : Does (·.isValid = true) s.factory (s.factory.perform (.push e)) := .queues e
    exact ⟨does.lacks clear.lacks, clear.todo⟩
  | generate =>
    have does : Does (·.isValid = true) s.factory (s.factory.issuing fun _ => []) := .issuing _ _
    exact ⟨does.lacks clear.lacks, clear.todo⟩
  | begin op free => exact clear.begin small op
  | @task task rest todo =>
    have made : s.factory.create.1.isValid = true := Entity.nthValid (Nat.succ_pos _) small
    obtain ⟨allowed, later⟩ := List.forall_mem_cons.mp (todo ▸ clear.todo)
    have does : Does (·.isValid = true) s.factory (s.factory.perform task) := .perform allowed _
    exact ⟨does.lacks clear.lacks, List.forall_mem_append.mpr ⟨performOffers allowed made, later⟩⟩
  | done => exact ⟨clear.lacks, clear.todo⟩

end Clear

theorem Follows.issues {event : Event} {t : Shared} (follows : s.Follows event t) :
    s.issues <+: t.issues := by
  cases follows with
  | same | done => exact List.prefix_refl _
  | push | generate | begin | task => exact List.prefix_append _ _

structure Issued (s : Shared) : Prop where
  counted : s.Counted
  clear : s.factory.counter.issued + 1 < UInt64.size → s.Clear

theorem Issued.next {event : Event} {t : Shared} (issued : s.Issued)
    (follows : s.Follows event t) : t.Issued := by
  refine ⟨issued.counted.next follows, fun small => ?_⟩
  -- The bound is on what has been issued in the end, so it holds at every step before.
  have grown := follows.issues.length_le
  rw [issued.counted.length, (issued.counted.next follows).length] at grown
  have room : s.factory.counter.issued + 1 < UInt64.size := by omega
  exact (issued.clear room).next room follows

theorem issuedRun (config : Config) (source : AssetSource) (events : List Event) :
    ((idle (initial config source)).run events).Issued := by
  have lacks : (initial config source).Lacks .invalid := ⟨fun _ _ found => (nomatch found), rfl⟩
  have start : (idle (initial config source)).Issued :=
    ⟨⟨rfl, List.forall_mem_nil _, fun _ running => (nomatch running)⟩,
      fun _ => ⟨lacks, List.forall_mem_nil _⟩⟩
  exact runKeeps (fun _ => True) (fun s t event follows _ issued => issued.next follows)
    (fun _ _ => trivial) start

end Shared

theorem idsFresh (config : Config) (source : AssetSource) (events : List Event)
    (few : ((Shared.idle (initial config source)).run events).issues.length < UInt64.size - 1) :
    let s := (Shared.idle (initial config source)).run events
    s.issues.map (·.id.toNat) = List.range' 1 s.issues.length ∧
      s.factory.counter.count.toNat = s.issues.length ∧
      s.issues.Nodup ∧ Entity.invalid ∉ s.issues ∧
      (∀ call ∈ s.done, call.1.op.creates = true → ∀ e, call.1.answer = some e →
        e.isValid = true → e ∉ call.1.issued) ∧
      s.factory.systems.nameOf .invalid = none ∧ s.factory.systems.healthOf .invalid = none ∧
      s.factory.systems.transformOf .invalid = none ∧
      (∀ links, s.factory.systems.get? .hierarchy = some links → links.Lacks .invalid) ∧
      s.factory.blueprintNames.get? .invalid = none := by
  intro s
  obtain ⟨counted, clear⟩ : s.Issued := Shared.issuedRun config source events
  have small : s.factory.counter.issued + 1 < UInt64.size := by
    have fewer : s.issues.length < UInt64.size - 1 := few
    rw [counted.length] at fewer
    omega
  have room : 1 + s.factory.counter.issued ≤ UInt64.size := by omega
  have numbers : s.issues.map (·.id.toNat) = List.range' 1 s.issues.length := by
    rw [counted.length, counted.issues, numbered, List.map_map]
    refine (List.map_congr_left fun i inside => ?_).trans (List.map_id' _)
    have below := (List.mem_range'_1.mp inside).2
    exact Entity.nthNumber (by omega)
  have count : s.factory.counter.count.toNat = s.issues.length := by
    rw [counted.length, Counter.countNumber (by omega)]
  have unique : s.issues.Nodup := counted.issues ▸ Entity.numberedNodup room
  have positive : Entity.invalid ∉ s.issues := by
    rw [counted.issues, Entity.memNumbered room]
    exact fun inside => absurd inside.1 (by decide)
  obtain ⟨⟨lack, unnamed⟩, -⟩ := clear small
  exact ⟨numbers, count, unique, positive,
    fun call done creates e answered valid =>
      (counted.done call done).unissued few creates answered valid,
    lack.nameOf, lack.healthOf, lack.transformOf, lack .hierarchy, unnamed⟩

theorem issuedBetweenWheels :
    let cart : Tree := .node [.ofValue .name "cart"] [.leaf [], .leaf []]
    let steps (n : Nat) : List Event := List.replicate n .step
    let events : List Event :=
      [.call (.createSystem .names {}), .step, .call (.createSystem .hierarchy {}), .step,
        .call (.setHook .attaching), .step, .generate, .call (.createWithTree cart)] ++ steps 3 ++
      [.generate] ++ steps 6 ++ [.generate] ++ steps 2 ++
      [.call (.populateWithTree .invalid cart), .step,
        .call (.queueForDestruction .invalid)] ++ steps 2 ++ [.call .destroyQueued] ++ steps 2
    let s := (Shared.idle (initial {} (.memory {} 0))).run events
    s.issues.length = 6 ∧ s.factory.systems.childrenOf ⟨2⟩ = [⟨3⟩, ⟨5⟩] ∧
      s.done.map (fun call => (call.1.answer, call.1.issued.length)) =
        [(none, 0), (none, 0), (none, 0), (some ⟨2⟩, 1), (some .invalid, 6), (none, 6)] ∧
      s.issues.map (·.id.toNat) = List.range' 1 s.issues.length ∧ s.issues.Nodup ∧
      (∀ call ∈ s.done, call.1.op.creates = true → ∀ e, call.1.answer = some e →
        e.isValid = true → e ∉ call.1.issued) ∧
      s.factory.systems.nameOf .invalid = none ∧
      ∀ links, s.factory.systems.get? .hierarchy = some links → links.Lacks .invalid := by
  intro cart steps events
  have few : ((Shared.idle (initial {} (.memory {} 0))).run events).issues.length < UInt64.size - 1 := by
    decide +kernel
  obtain ⟨numbers, -, unique, -, fresh, unnamed, -, -, unlinked, -⟩ :=
    idsFresh {} (.memory {} 0) events few
  exact ⟨by decide +kernel, by decide +kernel, by decide +kernel, numbers, unique, fresh, unnamed,
    unlinked⟩

end Factory
end EntityFoundry
