import EntityFoundry.Proofs.Factory.Runs
/-! A factory among other threads. The counter and the queue are shared by handles that any thread
may use at any time; everything else is done by one thread, one call after another. A call is taken
apart into tasks that reach the counter or the queue once at most, and between two tasks other
threads may come in. Where none does, the tasks do what the operation does. -/
namespace EntityFoundry.Factory

inductive Task
  | dispatch (e : Entity) (b : Blueprint)
  | child (parent : Entity) (t : Tree)
  | attach (parent child : Entity)
  | announce (style : HookStyle) (parent child : Entity)
  | note (n : Notice)
  | name (e : Entity) (name : String)
  | tell (system : SystemId) (e : Entity)
  | push (e : Entity)
  | forget (e : Entity)

structure Progress where
  factory : Factory
  todo : List Task := []
  issued : List Entity := []
  pushed : List Entity := []

def issuing (f : Factory) (next : Entity → List Task) : Progress where
  factory := f.create.2
  todo := next f.create.1
  issued := [f.create.1]

/-! Creating. -/

def building (e : Entity) (t : Tree) : List Task :=
  .dispatch e t.blueprint :: t.children.map (.child e)

def childNoted (parent child : Entity) : Task :=
  .note (if child.isValid then .childCreated parent child else .childFailed parent)

def startChild (f : Factory) (parent : Entity) (t : Tree) : Progress :=
  match f.hook with
  | .parentless => f.issuing fun child => building child t ++ [childNoted parent child]
  | .attaching =>
    f.issuing fun child => building child t ++ [.attach parent child, childNoted parent child]
  | .scripted style failing calls =>
    let f := { f with hook := .scripted style failing (calls + 1) }
    if calls ∈ failing then { factory := f, todo := [childNoted parent .invalid] }
    else f.issuing fun child =>
      let announced := Task.announce style parent child
      match style with
      | .linking => building child t ++ [announced, childNoted parent child]
      | .populating =>
        announced :: if child.isValid then building child t ++ [childNoted parent child]
          else [.note .invalidPopulated, childNoted parent .invalid]
      | .shallow => [.dispatch child t.blueprint, announced, childNoted parent child]

def preparing (f : Factory) (e : Entity) (name : String) (data : Bytes) :
    Except FactoryError (List Task) × Factory :=
  match f.loader with
  | none => (.error .missingLoader, f)
  | some schema =>
    match schema.load f.types data with
    | .error error => (.error (.codec error), f)
    | .ok (t, warnings) => (.ok (building e t ++ [.name e name]), f.noteAll (warnings.map .schema))

def preparingNamed (f : Factory) (e : Entity) (name : String) :
    Except FactoryError (List Task) × Factory :=
  if !e.isValid then (.error .invalidEntity, f)
  else if f.loader.isNone then (.error .missingLoader, f)
  else
    match f.blueprintAsset name with
    | (.error error, f) => (.error (.asset error), f)
    | (.ok data, f) => f.preparing e name data

def startNamed (f : Factory) (e : Entity) (name : String) : Entity × List Task × Factory :=
  match f.preparingNamed e name with
  | (.ok tasks, f) => (e, tasks, f)
  | (.error error, f) => (.invalid, [], f.note (.creationFailed e name error))

def startFromData (f : Factory) (data : Bytes) (name : String)
    (failing : FactoryError → Factory → Factory) : Option Entity × Progress :=
  if f.loader.isNone then (none, { factory := failing .missingLoader f })
  else
    let (e, f) := f.create
    match f.preparing e name data with
    | (.ok tasks, f) => (some e, { factory := f, todo := tasks, issued := [e] })
    | (.error error, f) => (none, { factory := failing error f, issued := [e] })

/-! Destroying. -/

def ending (f : Factory) (e : Entity) : List Task := f.attached.map (.tell · e) ++ [.forget e]

def startDraining (f : Factory) : Progress :=
  match f.queue with
  | [] => { factory := f }
  | queued =>
    { factory := { f with queue := [] }
      todo := queued.flatMap f.ending ++ [.note (.queueDestroyed queued.length)] }

/-! Calls and steps. -/

def opening (f : Factory) : Op → Option Entity × Progress
  | .create => (some f.create.1, f.issuing fun _ => [])
  | .issueMany n =>
    let (es, counter) := f.counter.issueMany n
    (none, { factory := { f with counter := counter }, issued := es })
  | .createNamed name =>
    let (answer, tasks, g) := f.create.2.startNamed f.create.1 name
    (some answer, { factory := g, todo := tasks, issued := [f.create.1] })
  | .createWithBlueprint b => (some f.create.1, f.issuing fun e => [.dispatch e b])
  | .createWithTree t => (some f.create.1, f.issuing (building · t))
  | .populateNamed e name =>
    let (answer, tasks, g) := f.startNamed e name
    (some answer, { factory := g, todo := tasks })
  | .populateWithTree e t =>
    if e.isValid then (some e, { factory := f, todo := building e t })
    else (some .invalid, { factory := f.note .invalidPopulated })
  | .createFromData data name =>
    let failing error f := note f (.creationFailed .invalid name error)
    let (answer, progress) := f.startFromData data name failing
    (some (answer.getD .invalid), progress)
  | .tryCreateFromData data name => f.startFromData data name fun _ f => f
  | .destroy e => (none, { factory := f, todo := f.ending e })
  | .queueForDestruction e => (none, { factory := f, todo := [.push e] })
  | .destroyQueued => (none, f.startDraining)
  | op => (none, { factory := f.apply op })

def perform (f : Factory) : Task → Progress
  | .dispatch e b => { factory := f.dispatch e b }
  | .child parent t => f.startChild parent t
  | .attach parent child => { factory := f.attachChild parent child }
  | .announce style parent child => { factory := f.called (.createChild style parent child) }
  | .note n => { factory := f.note n }
  | .name e name =>
    { factory := { f with blueprintNames := f.blueprintNames.insert e name }.note
        (.createdFromAsset e name) }
  | .tell system e =>
    match f.systems.get? system with
    | none => { factory := f }
    | some state =>
      { factory := f.tell (.destroy system e), todo := (system.queues e state).map .push }
  | .push e => { factory := f.queueForDestruction e, pushed := [e] }
  | .forget e =>
    { factory := { f with blueprintNames := f.blueprintNames.erase e }.note (.destroyed e) }

structure Begun where
  op : Op
  before : Factory
  issued : List Entity
  pushed : List Entity
  answer : Option Entity

/-- The shared state with its history: the entities issued and pushed so far, oldest first, by
whatever thread, and the calls that are done with the factory each of them left. -/
structure Shared where
  factory : Factory
  todo : List Task := []
  underway : Option Begun := none
  issues : List Entity := []
  pushes : List Entity := []
  done : List (Begun × Factory) := []

inductive Event
  | push (e : Entity)
  | generate
  | call (op : Op)
  | step

namespace Shared

def advance (s : Shared) (p : Progress) (rest : List Task) : Shared :=
  { s with
    factory := p.factory
    todo := p.todo ++ rest
    issues := s.issues ++ p.issued
    pushes := s.pushes ++ p.pushed }

def begin (s : Shared) (op : Op) : Shared :=
  let (answer, progress) := s.factory.opening op
  { s.advance progress [] with underway := some ⟨op, s.factory, s.issues, s.pushes, answer⟩ }

def step (s : Shared) : Shared :=
  match s.todo, s.underway with
  | task :: rest, _ => s.advance (s.factory.perform task) rest
  | [], some begun => { s with underway := none, done := s.done ++ [(begun, s.factory)] }
  | [], none => s

def next (s : Shared) : Event → Shared
  | .push e => s.advance (s.factory.perform (.push e)) s.todo
  | .generate => s.advance (s.factory.issuing fun _ => []) s.todo
  | .call op => if s.underway.isSome then s else s.begin op
  | .step => s.step

def run (s : Shared) (events : List Event) : Shared := events.foldl next s

end Shared

/-! One thread alone. -/

def answer (f : Factory) : Op → Option Entity
  | .create => some f.create.1
  | .createNamed name => some (f.createNamed name).1
  | .createWithBlueprint b => some (f.createWithBlueprint b).1
  | .createWithTree t => some (f.createWithTree t).1
  | .populateNamed e name => some (f.populateNamed e name).1
  | .populateWithTree e t => some (f.populateWithTree e t).1
  | .createFromData data name => some (f.createFromData data name).1
  | .tryCreateFromData data name => (f.tryCreateFromData data name).1.toOption
  | _ => none

inductive Performs : List Task → Factory → Factory → Prop
  | done {f : Factory} : Performs [] f f
  | next {task : Task} {rest : List Task} {f g : Factory}
      (later : Performs ((f.perform task).todo ++ rest) (f.perform task).factory g) :
      Performs (task :: rest) f g

namespace Performs
variable {f g h : Factory}

theorem append {tasks others : List Task} (first : Performs tasks f g)
    (second : Performs others g h) : Performs (tasks ++ others) f h := by
  induction first with
  | done => exact second
  | next _ ih =>
    have later := ih second
    rw [List.append_assoc] at later
    exact .next later

theorem one {task : Task} (whole : (f.perform task).todo = []) (made : (f.perform task).factory = g) :
    Performs [task] f g := by
  refine .next ?_
  rw [whole, made]
  exact .done

theorem fold {α : Type} {tasks : α → List Task} {step : Factory → α → Factory}
    (each : ∀ x f, Performs (tasks x) f (step f x)) (xs : List α) (f : Factory) :
    Performs (xs.flatMap tasks) f (xs.foldl step f) := by
  induction xs generalizing f with
  | nil => exact .done
  | cons x xs ih =>
    rw [List.flatMap_cons]
    exact (each x f).append (ih (step f x))

theorem childNoted (f : Factory) (parent child : Entity) :
    Performs [Factory.childNoted parent child] f (f.noteChild parent child) := .one rfl rfl

theorem child {t : Tree} (built : ∀ e f, Performs (building e t) f (build e t f)) (parent : Entity)
    (f : Factory) :
    let made := f.createChild (fun e f => build e t f) t.blueprint parent
    Performs [.child parent t] f (made.2.noteChild parent made.1) := by
  refine .next ?_
  rw [List.append_nil]
  change Performs (f.startChild parent t).todo (f.startChild parent t).factory _
  unfold startChild createChild
  cases f.hook with
  | parentless => exact (built _ _).append (childNoted _ _ _)
  | attaching =>
    exact (built _ _).append (append (.one rfl rfl : Performs [_] _ _) (childNoted _ _ _))
  | scripted style failing calls =>
    by_cases fails : calls ∈ failing
    · simp only [fails, if_true]
      exact childNoted _ _ _
    simp only [fails, if_false]
    cases style with
    | linking =>
      exact (built _ _).append (append (.one rfl rfl : Performs [_] _ _) (childNoted _ _ _))
    | populating =>
      unfold issuing
      generalize create { f with hook := .scripted .populating failing (calls + 1) } = made
      obtain ⟨child, g⟩ := made
      refine .next ?_
      cases valid : child.isValid with
      | true =>
        simp only [if_true]
        exact (built _ _).append (childNoted _ _ _)
      | false =>
        simp only [Bool.false_eq_true, if_false]
        exact .next (childNoted _ _ _)
    | shallow =>
      refine append (.one rfl rfl : Performs [_] _ _) ?_
      exact append (.one rfl rfl : Performs [_] _ _) (childNoted _ _ _)

theorem building (e : Entity) (t : Tree) (f : Factory) :
    Performs (Factory.building e t) f (build e t f) := by
  induction t using Tree.byNodes generalizing e f with
  | node b ts ih =>
    have children (us : List Tree) (among : ∀ t ∈ us, t ∈ ts) (f : Factory) :
        Performs (us.map (.child e)) f (buildChildren e us f) := by
      induction us generalizing f with
      | nil => exact .done
      | cons t us later =>
        have made := child (ih t (among t (by simp))) e f
        exact made.append (later (fun u member => among u (by simp [member])) _)
    exact append (.one rfl rfl : Performs [_] _ _) (children ts (fun _ member => member) _)

inductive Prepares : Except FactoryError (List Task) × Factory →
    Except FactoryError Unit × Factory → Prop
  | ok {tasks : List Task} {f g : Factory} (performs : Performs tasks f g) :
      Prepares (.ok tasks, f) (.ok (), g)
  | error {error : FactoryError} {f : Factory} : Prepares (.error error, f) (.error error, f)

theorem preparing (f : Factory) (e : Entity) (name : String) (data : Bytes) :
    Prepares (f.preparing e name data) (f.populateFromData e name data) := by
  unfold Factory.preparing populateFromData
  cases f.loader with
  | none => exact .error
  | some schema =>
    cases read : schema.load f.types data with
    | error error =>
      simp only [read]
      exact .error
    | ok loaded =>
      simp only [read]
      exact .ok ((building e _ _).append (.one rfl rfl))

theorem preparingNamed (f : Factory) (e : Entity) (name : String) :
    Prepares (f.preparingNamed e name) (f.tryPopulateNamed e name) := by
  unfold Factory.preparingNamed tryPopulateNamed
  split
  · exact .error
  split
  · exact .error
  cases f.blueprintAsset name with
  | mk result g =>
    cases result with
    | error error => exact .error
    | ok data => exact preparing g e name data

theorem startNamed (f : Factory) (e : Entity) (name : String) :
    Performs (f.startNamed e name).2.1 (f.startNamed e name).2.2 (f.populateNamed e name).2 ∧
      (f.startNamed e name).1 = (f.populateNamed e name).1 := by
  have prepared := preparingNamed f e name
  unfold Factory.startNamed populateNamed
  generalize f.preparingNamed e name = made at prepared ⊢
  generalize f.tryPopulateNamed e name = whole at prepared ⊢
  cases prepared with
  | ok performs => exact ⟨performs, rfl⟩
  | error => exact ⟨.done, rfl⟩

def completed (failing : FactoryError → Factory → Factory) :
    Except FactoryError Entity × Factory → Option Entity × Factory
  | (.ok e, f) => (some e, f)
  | (.error error, f) => (none, failing error f)

theorem startFromData (f : Factory) (data : Bytes) (name : String)
    (failing : FactoryError → Factory → Factory) :
    let made := completed failing (f.tryCreateFromData data name)
    Performs (f.startFromData data name failing).2.todo
      (f.startFromData data name failing).2.factory made.2 ∧
      (f.startFromData data name failing).1 = made.1 := by
  unfold Factory.startFromData tryCreateFromData
  split
  · exact ⟨.done, rfl⟩
  · have prepared := preparing f.create.2 f.create.1 name data
    generalize f.create = made at prepared ⊢
    obtain ⟨e, g⟩ := made
    simp only at prepared ⊢
    generalize g.preparing e name data = begun at prepared ⊢
    generalize g.populateFromData e name data = whole at prepared ⊢
    cases prepared with
    | ok performs => exact ⟨performs, rfl⟩
    | error => exact ⟨.done, rfl⟩

theorem pushes (es : List Entity) (f : Factory) :
    Performs (es.map .push) f { f with queue := f.queue ++ es } := by
  induction es generalizing f with
  | nil =>
    rw [List.append_nil]
    exact .done
  | cons e es ih =>
    have later := ih (f.queueForDestruction e)
    simp only [queueForDestruction, List.append_assoc, List.singleton_append] at later
    exact .next later

theorem tell (e : Entity) (s : SystemId) (f : Factory) :
    Performs [.tell s e] f (destroyIn e f s) := by
  unfold destroyIn
  refine .next ?_
  rw [List.append_nil]
  unfold perform
  cases held : f.systems.get? s with
  | none =>
    simp only [held]
    exact .done
  | some state =>
    simp only [held]
    exact pushes _ _

theorem attachedDestroy (f : Factory) (e : Entity) : (f.destroy e).attached = f.attached := by
  have kept (ss : List SystemId) (f : Factory) : (ss.foldl (destroyIn e) f).attached = f.attached := by
    induction ss generalizing f with
    | nil => rfl
    | cons s ss ih =>
      refine (ih _).trans ?_
      unfold destroyIn
      cases f.systems.get? s <;> rfl
  exact kept f.attached f

theorem ending (f : Factory) (e : Entity) : Performs (f.ending e) f (f.destroy e) := by
  have told := fold (tell e) f.attached f
  rw [← List.map_eq_flatMap] at told
  exact told.append (.one rfl rfl)

theorem draining (f : Factory) :
    Performs f.startDraining.todo f.startDraining.factory f.destroyQueued := by
  -- The tasks were listed when the call began; no system is attached while they are done.
  have endings (es : List Entity) (g : Factory) (same : g.attached = f.attached) :
      Performs (es.flatMap f.ending) g (es.foldl destroy g) := by
    induction es generalizing g with
    | nil => exact .done
    | cons e es ih =>
      have first := ending g e
      have each : g.ending e = f.ending e := by rw [Factory.ending, same, Factory.ending]
      rw [each] at first
      exact first.append (ih (g.destroy e) ((attachedDestroy g e).trans same))
  unfold startDraining destroyQueued
  cases f.queue with
  | nil => exact .done
  | cons e es => exact (endings (e :: es) { f with queue := [] } rfl).append (.one rfl rfl)

theorem opens (f : Factory) (op : Op) :
    Performs (f.opening op).2.todo (f.opening op).2.factory (f.apply op) ∧
      (f.opening op).1 = f.answer op := by
  cases op with
  | createNamed name =>
    have started := startNamed f.create.2 f.create.1 name
    exact ⟨started.1, congrArg some started.2⟩
  | createWithBlueprint b => exact ⟨.one rfl rfl, rfl⟩
  | createWithTree t => exact ⟨building _ t _, rfl⟩
  | populateNamed e name => exact ⟨(startNamed f e name).1, congrArg some (startNamed f e name).2⟩
  | populateWithTree e t =>
    simp only [opening, apply, answer, populateWithTree]
    split
    · exact ⟨building e t f, rfl⟩
    · exact ⟨.done, rfl⟩
  | createFromData data name =>
    obtain ⟨performs, answered⟩ := startFromData f data name fun error f =>
      note f (.creationFailed .invalid name error)
    simp only [opening, apply, answer, createFromData]
    rw [answered]
    generalize f.tryCreateFromData data name = whole at performs ⊢
    obtain ⟨result, g⟩ := whole
    cases result with
    | ok e => exact ⟨performs, rfl⟩
    | error error => exact ⟨performs, rfl⟩
  | tryCreateFromData data name =>
    obtain ⟨performs, answered⟩ := startFromData f data name fun _ f => f
    simp only [opening, apply, answer]
    rw [answered]
    generalize f.tryCreateFromData data name = whole at performs ⊢
    obtain ⟨result, g⟩ := whole
    cases result with
    | ok e => exact ⟨performs, rfl⟩
    | error error => exact ⟨performs, rfl⟩
  | destroy e => exact ⟨ending f e, rfl⟩
  | queueForDestruction e => exact ⟨.one rfl rfl, rfl⟩
  | destroyQueued => exact ⟨draining f, rfl⟩
  | _ => exact ⟨.done, rfl⟩

end Performs

namespace Shared

def idle (f : Factory) : Shared := { factory := f }

theorem runAppend (s : Shared) (events more : List Event) :
    s.run (events ++ more) = (s.run events).run more := List.foldl_append

inductive Follows (s : Shared) : Event → Shared → Prop
  | same (event : Event) : Follows s event s
  | push (e : Entity) : Follows s (.push e) (s.advance (s.factory.perform (.push e)) s.todo)
  | generate : Follows s .generate (s.advance (s.factory.issuing fun _ => []) s.todo)
  | begin (op : Op) (free : s.underway = none) : Follows s (.call op) (s.begin op)
  | task {task : Task} {rest : List Task} (todo : s.todo = task :: rest) :
      Follows s .step (s.advance (s.factory.perform task) rest)
  | done {b : Begun} (todo : s.todo = []) (running : s.underway = some b) :
      Follows s .step { s with underway := none, done := s.done ++ [(b, s.factory)] }

theorem follows (s : Shared) (event : Event) : s.Follows event (s.next event) := by
  cases event with
  | push e => exact .push e
  | generate => exact .generate
  | call op =>
    cases running : s.underway with
    | none => simpa [next, running] using Follows.begin op running
    | some b => simpa [next, running] using Follows.same (.call op)
  | step =>
    change s.Follows .step s.step
    unfold step
    split
    next todo => exact .task todo
    next todo running => exact .done todo running
    next => exact .same .step

theorem runKeeps {holds : Shared → Prop} (allowed : Event → Prop)
    (kept : ∀ s t event, s.Follows event t → allowed event → holds s → holds t)
    {events : List Event} (all : ∀ event ∈ events, allowed event) {s : Shared} (start : holds s) :
    holds (s.run events) := by
  induction events generalizing s with
  | nil => exact start
  | cons event events ih =>
    obtain ⟨first, later⟩ := List.forall_mem_cons.mp all
    exact ih later (kept s _ event (s.follows event) first start)

theorem runTasks {f g : Factory} {tasks : List Task} (performs : Performs tasks f g) (s : Shared)
    (here : s.factory = f) (todo : s.todo = tasks) : ∃ n issues pushes,
      s.run (List.replicate n .step) =
        { s with factory := g, todo := [], issues := issues, pushes := pushes } := by
  induction performs generalizing s with
  | done => exact ⟨0, s.issues, s.pushes, by rw [← here, ← todo]; rfl⟩
  | @next task rest f g later ih =>
    subst here
    have stepped : s.step = s.advance (s.factory.perform task) rest := by simp only [step, todo]
    obtain ⟨n, issues, pushes, ran⟩ := ih s.step (by rw [stepped]; rfl) (by rw [stepped]; rfl)
    refine ⟨n + 1, issues, pushes, ran.trans ?_⟩
    rw [stepped]
    rfl

theorem alone (s : Shared) (free : s.underway = none) (op : Op) :
    ∃ n, let t := s.run (.call op :: List.replicate n .step)
      t.factory = s.factory.apply op ∧ t.underway = none ∧ t.todo = [] ∧
        t.done = s.done ++
          [(⟨op, s.factory, s.issues, s.pushes, s.factory.answer op⟩, s.factory.apply op)] := by
  obtain ⟨performs, answered⟩ := Performs.opens s.factory op
  obtain ⟨n, issues, pushes, ran⟩ :=
    runTasks performs (s.begin op) rfl (List.append_nil (s.factory.opening op).2.todo)
  have called : s.run (.call op :: List.replicate (n + 1) .step) =
      ((s.begin op).run (List.replicate n .step)).run [.step] := by
    rw [← runAppend, ← List.replicate_succ']
    simp [run, next, free]
  refine ⟨n + 1, ?_⟩
  rw [called, ran]
  refine ⟨rfl, rfl, rfl, ?_⟩
  exact congrArg (fun a => s.done ++
    [(Begun.mk op s.factory s.issues s.pushes a, s.factory.apply op)]) answered

end Shared
end EntityFoundry.Factory
