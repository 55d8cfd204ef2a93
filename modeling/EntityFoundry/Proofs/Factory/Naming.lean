import EntityFoundry.Proofs.Factory.Steps
import EntityFoundry.Proofs.Numbering
import Mathlib.Data.List.Induction
/-! The names of entities. What an operation does to them shows in its answer, or in what it takes
from the queue: the entity answered gets the name it was asked for, and the entities destroyed lose
theirs. Nothing else does anything to them, so the log of these marks tells every name there is. -/
namespace EntityFoundry.Factory

inductive Mark
  | named (e : Entity) (name : String)
  | ended (e : Entity)
  deriving DecidableEq, Repr

namespace Mark

def entity : Mark → Entity
  | .named e _ => e
  | .ended e => e

def name? : Mark → Option String
  | .named _ name => some name
  | .ended _ => none

def write (names : Dict Entity String) : Mark → Dict Entity String
  | .named e name => names.insert e name
  | .ended e => names.erase e

theorem getWrite (names : Dict Entity String) (m : Mark) (e : Entity) :
    (m.write names).get? e = if e = m.entity then m.name? else names.get? e := by
  cases m with
  | named d name => exact Dict.getInsert names d e name
  | ended d => exact Dict.getErase names d e

theorem namedIff (m : Mark) (e : Entity) (name : String) :
    m = .named e name ↔ e = m.entity ∧ m.name? = some name := by
  cases m with
  | named d other => simp [entity, name?, eq_comm]
  | ended d => simp [name?]

theorem endedIff (m : Mark) (e : Entity) : m = .ended e ↔ e = m.entity ∧ m.name? = none := by
  cases m with
  | named d other => simp [name?]
  | ended d => simp [entity, name?, eq_comm]

end Mark

def Stands (clear : Mark → Prop) (log : List Mark) (m : Mark) : Prop :=
  ∃ earlier later, log = earlier ++ m :: later ∧ ∀ l ∈ later, clear l

theorem standsNil {clear : Mark → Prop} {m : Mark} : ¬ Stands clear [] m := by
  rintro ⟨earlier, later, split, -⟩
  simp at split

theorem standsAppend {clear : Mark → Prop} {log : List Mark} {l m : Mark} :
    Stands clear (log ++ [l]) m ↔ l = m ∨ clear l ∧ Stands clear log m := by
  constructor
  · rintro ⟨earlier, later, split, after⟩
    cases later using List.reverseRecOn with
    | nil =>
      exact .inl (List.cons.inj (List.append_inj_right' split rfl)).1
    | append_singleton later x =>
      rw [← List.cons_append, ← List.append_assoc] at split
      obtain ⟨log, last⟩ := List.append_inj' split rfl
      obtain rfl := (List.cons.inj last).1
      obtain ⟨within, clear⟩ := List.forall_mem_append.mp after
      exact .inr ⟨clear l (by simp), earlier, later, log, within⟩
  · rintro (rfl | ⟨clear, earlier, later, rfl, after⟩)
    · exact ⟨log, [], rfl, List.forall_mem_nil _⟩
    · exact ⟨earlier, later ++ [l], by simp,
        List.forall_mem_append.mpr ⟨after, by simpa using clear⟩⟩

theorem getWritten (log : List Mark) (e : Entity) (name : String) :
    (log.foldl Mark.write {}).get? e = some name ↔
      Stands (·.entity ≠ e) log (.named e name) := by
  induction log using List.reverseRecOn with
  | nil => exact ⟨fun found => (nomatch found), fun stands => (standsNil stands).elim⟩
  | append_singleton log l ih =>
    rw [List.foldl_append, List.foldl_cons, List.foldl_nil, Mark.getWrite, standsAppend, ← ih,
      Mark.namedIff]
    by_cases same : e = l.entity
    · simp [same]
    · simp [same, Ne.symm same]

theorem containsWritten (log : List Mark) (e : Entity) :
    (log.foldl Mark.write {}).contains e = true ↔
      ∃ name, Stands (· ≠ .ended e) log (.named e name) := by
  induction log using List.reverseRecOn with
  | nil => exact ⟨fun held => (nomatch held), fun ⟨_, stands⟩ => (standsNil stands).elim⟩
  | append_singleton log l ih =>
    rw [Dict.contains] at ih ⊢
    rw [List.foldl_append, List.foldl_cons, List.foldl_nil, Mark.getWrite]
    have spared : l ≠ .ended e ↔ ¬ (e = l.entity ∧ l.name? = none) := (Mark.endedIff l e).not
    simp only [standsAppend, Mark.namedIff, spared]
    by_cases same : e = l.entity
    · cases l.name? <;> simp [same]
    · simp [same, ih]

def Op.name? : Op → Option String
  | .createNamed name | .populateNamed _ name => some name
  | .createFromData _ name | .tryCreateFromData _ name => some name
  | _ => none

def Op.naming (op : Op) (answer : Option Entity) : List Mark :=
  match op.name?, answer with
  | some name, some e => if e.isValid then [.named e name] else []
  | _, _ => []

def Op.ending (f : Factory) : Op → List Mark
  | .destroy e => [.ended e]
  | .destroyQueued => f.queue.map .ended
  | _ => []

def Op.marks (f : Factory) (op : Op) : List Mark := op.naming (f.answer op) ++ op.ending f

def marks (ops : List Op) (f : Factory) : List Mark := logged Op.marks ops f

/-! Tasks. -/

def Task.marks : Task → List Mark
  | .name e given => [.named e given]
  | .forget e => [.ended e]
  | _ => []

theorem buildingMarks (e : Entity) (t : Tree) : (building e t).flatMap Task.marks = [] := by
  simp [building, Task.marks, List.flatMap_map]

theorem childMarks (f : Factory) (parent : Entity) (t : Tree) :
    (f.startChild parent t).factory.blueprintNames = f.blueprintNames ∧
      (f.startChild parent t).todo.flatMap Task.marks = [] := by
  unfold startChild
  cases f.hook with
  | parentless => exact ⟨rfl, by simp [issuing, buildingMarks, childNoted, Task.marks]⟩
  | attaching => exact ⟨rfl, by simp [issuing, buildingMarks, childNoted, Task.marks]⟩
  | scripted style failing calls =>
    by_cases fails : calls ∈ failing
    · simp only [fails, if_true]
      exact ⟨trivial, rfl⟩
    · simp only [fails, if_false]
      refine ⟨rfl, ?_⟩
      cases style with
      | linking => simp [issuing, buildingMarks, childNoted, Task.marks]
      | populating =>
        simp only [issuing]
        split <;> simp [buildingMarks, childNoted, Task.marks]
      | shallow => simp [issuing, childNoted, Task.marks]

theorem performMarks (f : Factory) (task : Task) :
    (f.perform task).factory.blueprintNames = task.marks.foldl Mark.write f.blueprintNames ∧
      (f.perform task).todo.flatMap Task.marks = [] := by
  cases task with
  | dispatch e b =>
    have arranged : Arranges (fun _ => True) f (f.dispatch e b) := .dispatch f trivial b
    exact ⟨arranged.rest.2.2, rfl⟩
  | child parent t => exact childMarks f parent t
  | attach parent child =>
    refine ⟨?_, rfl⟩
    simp only [perform, attachChild]
    split <;> rfl
  | announce | note | name | forget | push => exact ⟨rfl, rfl⟩
  | tell s e =>
    unfold perform
    cases held : f.systems.get? s with
    | none =>
      simp only [held]
      exact ⟨rfl, rfl⟩
    | some state =>
      simp only [held]
      exact ⟨rfl, by simp [Task.marks, List.flatMap_map]⟩

theorem Performs.marks {tasks : List Task} {f g : Factory} (performs : Performs tasks f g) :
    g.blueprintNames = (tasks.flatMap Task.marks).foldl Mark.write f.blueprintNames := by
  induction performs with
  | done => rfl
  | @next task rest f g later ih =>
    -- What a task puts before the rest marks nothing.
    obtain ⟨written, silent⟩ := performMarks f task
    rw [ih, List.flatMap_append, silent, List.nil_append, written, List.flatMap_cons,
      List.foldl_append]

/-! Calls. -/

theorem preparingMarks {f : Factory} {e : Entity} {name : String} {data : Bytes}
    {tasks : List Task} (prepared : (f.preparing e name data).1 = .ok tasks) :
    tasks.flatMap Task.marks = [.named e name] := by
  unfold preparing at prepared
  cases loads : f.loader with
  | none => simp [loads] at prepared
  | some schema =>
    cases read : schema.load f.types data with
    | error error => simp [loads, read] at prepared
    | ok loaded =>
      simp only [loads, read] at prepared
      cases prepared
      rw [List.flatMap_append, buildingMarks]
      rfl

theorem preparingNamedMarks {f : Factory} {e : Entity} {name : String} {tasks : List Task}
    (prepared : (f.preparingNamed e name).1 = .ok tasks) :
    e.isValid = true ∧ tasks.flatMap Task.marks = [.named e name] := by
  unfold preparingNamed at prepared
  split at prepared
  · cases prepared
  next valid =>
    split at prepared
    · cases prepared
    cases read : f.blueprintAsset name with
    | mk result g =>
      rw [read] at prepared
      cases result with
      | error error => cases prepared
      | ok data => exact ⟨by simpa using valid, preparingMarks prepared⟩

theorem startNamedMarks (f : Factory) (e : Entity) (name : String) :
    let started := f.startNamed e name
    started.2.2.blueprintNames = f.blueprintNames ∧ started.2.1.flatMap Task.marks =
      if started.1.isValid then [.named started.1 name] else [] := by
  have arranged : Arranges (fun _ => True) f (f.startNamed e name).2.2 := .startNamed f e name
  refine ⟨arranged.rest.2.2, ?_⟩
  unfold startNamed
  cases made : f.preparingNamed e name with
  | mk result g =>
    cases result with
    | error error => rfl
    | ok tasks =>
      obtain ⟨valid, marked⟩ := preparingNamedMarks (congrArg Prod.fst made)
      exact marked.trans (if_pos valid).symm

theorem startFromDataMarks {f : Factory} (made : f.create.1.isValid = true) (data : Bytes)
    (name : String) (failing : FactoryError → Factory → Factory)
    (kept : ∀ error f, (failing error f).blueprintNames = f.blueprintNames) :
    let started := f.startFromData data name failing
    started.2.factory.blueprintNames = f.blueprintNames ∧
      started.2.todo.flatMap Task.marks = (started.1.map (Mark.named · name)).toList ∧
      ∀ e, started.1 = some e → e.isValid = true := by
  unfold startFromData
  split
  · exact ⟨kept _ f, rfl, fun _ none => (nomatch none)⟩
  have arranged : Arranges (fun _ => True) f.create.2
    (f.create.2.preparing f.create.1 name data).2 := .preparing f.create.2 f.create.1 name data
  cases prepared : f.create.2.preparing f.create.1 name data with
  | mk result g =>
    rw [prepared] at arranged
    simp only [prepared]
    cases result with
    | error error =>
      exact ⟨(kept error g).trans arranged.rest.2.2, rfl, fun _ none => (nomatch none)⟩
    | ok tasks =>
      refine ⟨arranged.rest.2.2, preparingMarks (congrArg Prod.fst prepared), fun e same => ?_⟩
      cases same
      exact made

theorem endingMarks (f : Factory) (e : Entity) : (f.ending e).flatMap Task.marks = [.ended e] := by
  simp [ending, Task.marks, List.flatMap_map]

theorem drainingMarks (f : Factory) :
    f.startDraining.todo.flatMap Task.marks = f.queue.map .ended := by
  unfold startDraining
  cases queued : f.queue with
  | nil => rfl
  | cons e es =>
    simp only
    rw [List.flatMap_append, List.flatMap_assoc]
    simp only [endingMarks]
    rw [← List.map_eq_flatMap]
    exact List.append_nil _

theorem namesArranged (f : Factory) {op : Op} (arranging : op.arranges = true) :
    (f.apply op).blueprintNames = f.blueprintNames :=
  (Arranges.apply f arranging : Arranges (fun _ => True) f (f.apply op)).rest.2.2

theorem openingMarks {f : Factory} (room : f.counter.issued + 1 < UInt64.size) (op : Op) :
    (f.opening op).2.factory.blueprintNames = f.blueprintNames ∧
      (f.opening op).2.todo.flatMap Task.marks = op.marks f := by
  have made : f.create.1.isValid = true := Entity.nthValid (Nat.succ_pos _) room
  unfold Op.marks
  rw [← (Performs.opens f op).2]
  cases op with
  | createNamed name =>
    obtain ⟨kept, marked⟩ := startNamedMarks f.create.2 f.create.1 name
    exact ⟨kept, marked.trans (List.append_nil _).symm⟩
  | populateNamed e name =>
    obtain ⟨kept, marked⟩ := startNamedMarks f e name
    exact ⟨kept, marked.trans (List.append_nil _).symm⟩
  | createFromData data name =>
    let failing error f := note f (.creationFailed .invalid name error)
    obtain ⟨kept, marked, valid⟩ := startFromDataMarks made data name failing fun _ _ => rfl
    refine ⟨kept, marked.trans ?_⟩
    simp only [opening]
    cases answered : (f.startFromData data name failing).1 with
    | none => rfl
    | some e => simp [Op.naming, Op.name?, Op.ending, valid e answered]
  | tryCreateFromData data name =>
    obtain ⟨kept, marked, valid⟩ :=
      startFromDataMarks made data name (fun _ f => f) fun _ _ => rfl
    refine ⟨kept, marked.trans ?_⟩
    simp only [opening]
    cases answered : (f.startFromData data name fun _ f => f).1 with
    | none => rfl
    | some e => simp [Op.naming, Op.name?, Op.ending, valid e answered]
  | createWithBlueprint b => exact ⟨rfl, rfl⟩
  | createWithTree t => exact ⟨rfl, buildingMarks _ t⟩
  | populateWithTree e t =>
    simp only [opening]
    split
    · exact ⟨rfl, buildingMarks e t⟩
    · exact ⟨rfl, rfl⟩
  | destroy e => exact ⟨rfl, endingMarks f e⟩
  | destroyQueued =>
    refine ⟨?_, drainingMarks f⟩
    simp only [opening, startDraining]
    split <;> rfl
  | create | issueMany | queueForDestruction | drainQueue => exact ⟨rfl, rfl⟩
  | _ => exact ⟨namesArranged f rfl, rfl⟩

theorem namesApply {f : Factory} (room : f.counter.issued + 1 < UInt64.size) (op : Op) :
    (f.apply op).blueprintNames = (op.marks f).foldl Mark.write f.blueprintNames := by
  obtain ⟨kept, marked⟩ := openingMarks room op
  rw [(Performs.opens f op).1.marks, kept, marked]

theorem namesRun {f : Factory} {ops : List Op}
    (room : (f.run ops).counter.issued + 1 < UInt64.size) :
    (f.run ops).blueprintNames = (marks ops f).foldl Mark.write f.blueprintNames := by
  induction ops generalizing f with
  | nil => rfl
  | cons op ops ih =>
    -- The bound is on what has been issued in the end, so it holds before every operation.
    have before := (Moves.run f (op :: ops)).issued
    rw [marks, logged, List.foldl_append, ← namesApply (by omega) op]
    exact ih room

def Op.ends : Op → Bool
  | .destroy _ | .destroyQueued => true
  | _ => false

theorem marksAnswered {f : Factory} {op : Op} (spares : op.ends = false) {m : Mark}
    (member : m ∈ op.marks f) : f.answer op = some m.entity := by
  have none : op.ending f = [] := by
    cases op with
    | destroy | destroyQueued => cases spares
    | _ => rfl
  rw [Op.marks, none, List.append_nil] at member
  unfold Op.naming at member
  split at member
  next answered =>
    split at member
    · rw [List.mem_singleton.mp member]
      exact answered
    · cases member
  · cases member

theorem getUnmarked {names : Dict Entity String} {e : Entity} {log : List Mark}
    (others : ∀ m ∈ log, m.entity ≠ e) : (log.foldl Mark.write names).get? e = names.get? e := by
  induction log generalizing names with
  | nil => rfl
  | cons m log ih =>
    obtain ⟨other, later⟩ := List.forall_mem_cons.mp others
    rw [List.foldl_cons, ih later, Mark.getWrite, if_neg (Ne.symm other)]

theorem namesLogged {f : Factory} (unnamed : f.blueprintNames = {}) {ops : List Op}
    (few : (f.run ops).counter.issued < UInt64.size - 1) :
    let g := f.run ops
    (∀ e, g.blueprintNames.contains e = true ↔
      ∃ name, Stands (· ≠ .ended e) (marks ops f) (.named e name)) ∧
    (∀ e name, g.blueprintNames.get? e = some name ↔
      Stands (·.entity ≠ e) (marks ops f) (.named e name)) ∧
    ∀ op : Op, op.ends = false → ∀ e, g.answer op ≠ some e →
      (g.apply op).blueprintNames.get? e = g.blueprintNames.get? e := by
  intro g
  have room : g.counter.issued + 1 < UInt64.size := Nat.add_lt_of_lt_sub few
  have written : g.blueprintNames = (marks ops f).foldl Mark.write {} := unnamed ▸ namesRun room
  refine ⟨fun e => ?_, fun e name => ?_, fun op spares e other => ?_⟩
  · rw [written]
    exact containsWritten _ e
  · rw [written]
    exact getWritten _ e name
  · rw [namesApply room op]
    exact getUnmarked fun m member same => other (same ▸ marksAnswered spares member)

theorem cartsNamedLogged :
    let bytes : Bytes := [129, 168, 99, 104, 105, 108, 100, 114, 101, 110, 146, 128, 128]
    let f := initial {} (.memory ⟨[("cart.bin", bytes)]⟩ 0)
    let ops : List Op :=
      [.createSystem .hierarchy {}, .setHook .attaching, .setLoader .standard, .createNamed "cart",
        .createNamed "wheel", .populateNamed ⟨2⟩ "cart", .tryCreateFromData bytes "bike",
        .createFromData [193] "bike", .populateNamed ⟨7⟩ "cart", .destroy ⟨1⟩, .destroyQueued,
        .populateNamed ⟨3⟩ "cart"]
    let g := f.run ops
    f.blueprintNames = {} ∧ (f.run ops).counter.issued < UInt64.size - 1 ∧
      marks ops f =
        [.named ⟨1⟩ "cart", .named ⟨2⟩ "cart", .named ⟨7⟩ "bike", .named ⟨7⟩ "cart", .ended ⟨1⟩,
          .ended ⟨2⟩, .ended ⟨3⟩, .named ⟨3⟩ "cart"] ∧
      g.systems.childrenOf ⟨7⟩ = [⟨8⟩, ⟨9⟩, ⟨11⟩, ⟨12⟩] ∧
      g.blueprintNames.get? ⟨7⟩ = some "cart" ∧ g.blueprintNames.contains ⟨3⟩ = true ∧
      g.blueprintNames.contains ⟨2⟩ = false ∧ g.answer (.createNamed "cart") = some ⟨15⟩ ∧
      ∀ e, some ⟨15⟩ ≠ some e →
        (g.apply (.createNamed "cart")).blueprintNames.get? e = g.blueprintNames.get? e := by
  intro bytes f ops g
  have few : (f.run ops).counter.issued < UInt64.size - 1 := by decide +kernel
  have logged : marks ops f =
      [.named ⟨1⟩ "cart", .named ⟨2⟩ "cart", .named ⟨7⟩ "bike", .named ⟨7⟩ "cart", .ended ⟨1⟩,
        .ended ⟨2⟩, .ended ⟨3⟩, .named ⟨3⟩ "cart"] := by
    decide +kernel
  have answered : g.answer (.createNamed "cart") = some ⟨15⟩ := by decide +kernel
  obtain ⟨held, named, kept⟩ := namesLogged (rfl : f.blueprintNames = {}) few
  have renamed := (named ⟨7⟩ "cart").mpr ⟨[.named ⟨1⟩ "cart", .named ⟨2⟩ "cart", .named ⟨7⟩ "bike"],
    [.ended ⟨1⟩, .ended ⟨2⟩, .ended ⟨3⟩, .named ⟨3⟩ "cart"], logged, by decide⟩
  have again := (held ⟨3⟩).mpr ⟨"cart", [.named ⟨1⟩ "cart", .named ⟨2⟩ "cart", .named ⟨7⟩ "bike",
    .named ⟨7⟩ "cart", .ended ⟨1⟩, .ended ⟨2⟩, .ended ⟨3⟩], [], logged, List.forall_mem_nil _⟩
  refine ⟨rfl, few, logged, by decide +kernel, renamed, again, by decide +kernel, answered,
    fun e other => ?_⟩
  exact kept (.createNamed "cart") rfl e (answered ▸ other)

end EntityFoundry.Factory
