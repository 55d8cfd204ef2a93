import EntityFoundry.Proofs.Factory.Counting
import EntityFoundry.Proofs.Factory.Invariants
import EntityFoundry.Proofs.Factory.Threads
/-! What one step of a call can do, whoever else comes in before and after it: it issues entities
and arranges things around them, it attaches a child, names an entity or forgets a name, or queues
one entity. Only the beginning of a call that works the queue off takes anything out of it. -/
namespace EntityFoundry.Factory

namespace Arranges
variable {offered : Entity → Prop}

theorem preparing (f : Factory) (e : Entity) (name : String) (data : Bytes) :
    Arranges offered f (f.preparing e name data).2 := by
  unfold Factory.preparing
  cases f.loader with
  | none => exact .refl f
  | some schema =>
    cases read : schema.load f.types data with
    | error error =>
      simp only [read]
      exact .refl f
    | ok loaded =>
      simp only [read]
      exact noteAll f _

theorem preparingNamed (f : Factory) (e : Entity) (name : String) :
    Arranges offered f (f.preparingNamed e name).2 := by
  unfold Factory.preparingNamed
  split
  · exact .refl f
  split
  · exact .refl f
  have read : Arranges offered f (f.blueprintAsset name).2 := blueprintAsset f name
  cases made : f.blueprintAsset name with
  | mk result g =>
    rw [made] at read
    cases result with
    | error error => exact read
    | ok data => exact read.trans (preparing g e name data)

theorem startNamed (f : Factory) (e : Entity) (name : String) :
    Arranges offered f (f.startNamed e name).2.2 := by
  have prepared : Arranges offered f (f.preparingNamed e name).2 := preparingNamed f e name
  unfold Factory.startNamed
  cases made : f.preparingNamed e name with
  | mk result g =>
    rw [made] at prepared
    cases result with
    | error error => exact prepared.trans (.note _ _)
    | ok tasks => exact prepared

end Arranges

inductive Does (offered : Entity → Prop) (f : Factory) : Progress → Prop
  | arranges (n : Nat) {g : Factory} {tasks : List Task}
      (after : Arranges offered { f with counter := (f.counter.issueMany n).2 } g) :
      Does offered f { factory := g, todo := tasks, issued := (f.counter.issueMany n).1 }
  | attaches {parent : Entity} (child : Entity) (allowed : offered parent) :
      Does offered f { factory := f.attachChild parent child }
  | names {e : Entity} (allowed : offered e) (name : String) (n : Notice) :
      Does offered f
        { factory := { f with blueprintNames := f.blueprintNames.insert e name }.note n }
  | forgets (e : Entity) (n : Notice) :
      Does offered f { factory := { f with blueprintNames := f.blueprintNames.erase e }.note n }
  | queues (e : Entity) : Does offered f { factory := f.queueForDestruction e, pushed := [e] }

def Task.Offers (offered : Entity → Prop) : Task → Prop
  | .dispatch e _ => offered e
  | .child e _ => offered e
  | .attach e _ => offered e
  | .name e _ => offered e
  | _ => True

def Op.takes : Op → Bool
  | .destroyQueued | .drainQueue => true
  | _ => false

theorem openingTakes (f : Factory) {op : Op} (takes : op.takes = true) :
    (f.opening op).2.factory = { f with queue := [] } ∧ (f.opening op).2.issued = [] ∧
      (f.opening op).2.pushed = [] := by
  cases op with
  | destroyQueued =>
    unfold Factory.opening startDraining
    cases held : f.queue with
    | nil => exact ⟨by simp only [← held], rfl, rfl⟩
    | cons e es => exact ⟨rfl, rfl, rfl⟩
  | drainQueue => exact ⟨rfl, rfl, rfl⟩
  | _ => cases takes

namespace Does
variable {offered : Entity → Prop} {f g : Factory} {p : Progress}

theorem settles (arranges : Arranges offered f g) (tasks : List Task) :
    Does offered f { factory := g, todo := tasks } := .arranges 0 arranges

theorem issues (arranges : Arranges offered f.create.2 g) (tasks : List Task) :
    Does offered f { factory := g, todo := tasks, issued := [f.create.1] } := by
  have one : (f.counter.issueMany 1).1 = [f.create.1] := by
    simp [Counter.issueMany, create, Counter.issue]
  exact one ▸ .arranges 1 arranges

theorem issuing (f : Factory) (next : Entity → List Task) : Does offered f (f.issuing next) :=
  issues (.refl _) _

theorem startChild (f : Factory) (parent : Entity) (t : Tree) :
    Does offered f (f.startChild parent t) := by
  unfold Factory.startChild
  cases f.hook with
  | parentless => exact issuing f _
  | attaching => exact issuing f _
  | scripted style failing calls =>
    by_cases fails : calls ∈ failing
    · simp only [fails, if_true]
      exact settles (.rehook f _) _
    · simp only [fails, if_false]
      exact issues (f := f) (Arranges.rehook f.create.2 (.scripted style failing (calls + 1))) _

theorem perform {task : Task} (allowed : task.Offers offered) (f : Factory) :
    Does offered f (f.perform task) := by
  cases task with
  | dispatch e b => exact settles (.dispatch f allowed b) []
  | child parent t => exact startChild f parent t
  | attach parent child => exact .attaches child allowed
  | announce style parent child =>
    have told : Arranges offered f (f.tell (.createChild style parent child)) :=
      .told f fun _ _ _ same => by cases same
    exact settles told []
  | note n => exact settles (.note f n) []
  | name e name => exact .names allowed name _
  | tell s e =>
    unfold Factory.perform
    cases held : f.systems.get? s with
    | none =>
      simp only [held]
      exact settles (.refl f) []
    | some state =>
      simp only [held]
      exact settles (.told f fun _ _ _ same => by cases same) _
  | push e => exact .queues e
  | forget e => exact .forgets e _

theorem performAny (f : Factory) (task : Task) : Does (fun _ => True) f (f.perform task) :=
  perform (by cases task <;> trivial) f

theorem startFromData (f : Factory) (data : Bytes) (name : String)
    {failing : FactoryError → Factory → Factory}
    (arranging : ∀ error f, Arranges offered f (failing error f)) :
    Does offered f (f.startFromData data name failing).2 := by
  unfold Factory.startFromData
  split
  · exact settles (arranging _ f) []
  · have prepared : Arranges offered f.create.2 (f.create.2.preparing f.create.1 name data).2 :=
      .preparing _ _ _ _
    cases made : f.create.2.preparing f.create.1 name data with
    | mk result g =>
      rw [made] at prepared
      simp only [made]
      cases result with
      | error error => exact issues (prepared.trans (arranging error g)) []
      | ok tasks => exact issues prepared tasks

theorem opening (f : Factory) {op : Op} (leaves : op.takes = false) :
    Does offered f (f.opening op).2 := by
  cases op with
  | create => exact issuing f fun _ => []
  | issueMany n => exact .arranges n (.refl _)
  | createNamed name => exact issues (.startNamed _ _ name) _
  | createWithBlueprint b => exact issuing f fun e => [.dispatch e b]
  | createWithTree t => exact issuing f (building · t)
  | populateNamed e name => exact settles (.startNamed f e name) _
  | populateWithTree e t =>
    simp only [Factory.opening]
    split
    · exact settles (.refl f) _
    · exact settles (.note f _) []
  | createFromData data name => exact startFromData f data name fun _ f => .note f _
  | tryCreateFromData data name => exact startFromData f data name fun _ f => .refl f
  | destroy e => exact settles (.refl f) _
  | queueForDestruction e => exact settles (.refl f) _
  | destroyQueued | drainQueue => cases leaves
  | _ => exact settles (.apply f rfl) []

theorem queue (does : Does offered f p) : p.factory.queue = f.queue ++ p.pushed := by
  cases does with
  | arranges n after => exact after.rest.2.1.trans (List.append_nil _).symm
  | attaches child allowed =>
    refine Eq.trans ?_ (List.append_nil _).symm
    simp only [attachChild]
    split <;> rfl
  | names | forgets => exact (List.append_nil _).symm
  | queues e => rfl

theorem seated (does : Does offered f p) (seated : f.Seated) : p.factory.Seated := by
  cases does with
  | arranges n after =>
    exact (after.mono fun _ _ => trivial).moves.seated (seated.keep rfl rfl fun _ held => held)
  | @attaches parent child allowed =>
    have held (s : SystemId) := Moves.attachContains f parent child s
    simp only [attachChild] at held ⊢
    split at held
    next valid =>
      simp only [valid, if_true]
      exact seated.keep rfl rfl fun s before => (held s).trans before
    next valid =>
      simp only [valid]
      exact seated
  | names | forgets | queues => exact seated.keep rfl rfl fun _ held => held

end Does

section
variable {relates : Factory → Factory → Prop} (refl : ∀ f, relates f f)
  (trans : ∀ {f g h}, relates f g → relates g h → relates f h)
  (perform : ∀ f task, relates f (Factory.perform f task).factory)
include refl trans perform

theorem performsSteps {tasks : List Task} {f g : Factory} (performs : Performs tasks f g) :
    relates f g := by
  induction performs with
  | done => exact refl _
  | next _ later => exact trans (perform _ _) later

theorem runSteps (opening : ∀ f op, relates f (Factory.opening f op).2.factory) (f : Factory)
    (ops : List Op) : relates f (f.run ops) := by
  induction ops generalizing f with
  | nil => exact refl f
  | cons op ops ih =>
    have applied := performsSteps refl trans perform (Performs.opens f op).1
    exact trans (trans (opening f op) applied) (ih (f.apply op))

end
end EntityFoundry.Factory
