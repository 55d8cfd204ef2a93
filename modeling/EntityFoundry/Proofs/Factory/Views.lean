import EntityFoundry.Proofs.Blueprint
import EntityFoundry.Proofs.Factory.Calls
/-! Creating a tree beside creating its view. Equality of records does not see who owns a payload.
Where no system from outside looks at that either, the two go through the same states, make the same
calls and give the same notices, except that the payloads are views in one of them. A factory is
viewed by its journal: every call in it then hands over views. -/
namespace EntityFoundry

def Call.viewed : Call → Call
  | .create system e r => .create system e r.viewed
  | .afterCreate system e r => .afterCreate system e r.viewed
  | c => c

theorem Call.viewedSystem (c : Call) : c.viewed.system? = c.system? := by
  cases c <;> rfl

def Entry.viewed : Entry → Entry
  | .call c => .call c.viewed
  | .notice n => .notice n

structure Probe.Blind (p : Probe) : Prop where
  judge : ∀ memory e r, p.judge memory e r.viewed = p.judge memory e r
  learn : ∀ memory c, p.learn memory c.viewed = p.learn memory c

namespace Systems
variable {all : Systems} {s : SystemId} {state : s.State}

theorem blindTold (blind : all.Probes Probe.Blind) (c : Call) : (all.told c).Probes Probe.Blind :=
  blind.told (fun _ _ same => ⟨same.judge, same.learn⟩) c

theorem verdictViewed (blind : all.Probes Probe.Blind) (held : all.get? s = some state)
    (e : Entity) (r : Record) : s.verdict state e r.viewed = s.verdict state e r := by
  cases s with
  | probe label => exact (blind label state held).judge _ e r
  | names | healths | transforms | hierarchy | plain => rfl

theorem hearViewed (blind : all.Probes Probe.Blind) (held : all.get? s = some state) (c : Call) :
    s.hear c.viewed state = s.hear c state := by
  cases s with
  | probe label => simp only [SystemId.hear, Probe.hear, (blind label state held).learn]
  | names | healths | transforms | hierarchy | plain => rfl

theorem storeViewed (s : SystemId) (state : s.State) (e : Entity) (r : Record) :
    s.store e r.viewed state = s.store e r state := by
  cases s <;> rfl

theorem storeNoticesViewed (s : SystemId) (e : Entity) (r : Record) :
    storeNotices e r.viewed s = storeNotices e r s := by
  cases s <;> rfl

theorem systemToldViewed (blind : all.Probes Probe.Blind) (held : all.get? s = some state)
    (c : Call) : s.told c.viewed state = s.told c state := by
  have heard := hearViewed blind held c
  cases c with
  | create system e r =>
    have accepted : s.accepts state e r.viewed = s.accepts state e r := by
      simp only [SystemId.accepts, verdictViewed blind held]
    simp only [Call.viewed] at heard
    simp only [SystemId.told, Call.viewed, heard, accepted, storeViewed]
  | afterCreate system e r => exact heard
  | start | destroy | createChild => rfl

theorem toldViewed (blind : all.Probes Probe.Blind) (c : Call) :
    all.told c.viewed = all.told c := by
  unfold told
  rw [Call.viewedSystem]
  cases c.system? with
  | none => rfl
  | some system =>
    exact Registry.updateCongr fun state held => systemToldViewed blind held c

end Systems

namespace Factory

def viewed (f : Factory) : Factory := { f with journal := f.journal.map Entry.viewed }

structure Twins (f g : Factory) : Prop where
  same : f.viewed = g.viewed
  blind : g.systems.Probes Probe.Blind

structure TwinAnswers {α : Type} (left right : α × Factory) : Prop where
  answer : left.1 = right.1
  twins : Twins left.2 right.2

theorem TwinAnswers.split {α : Type} {left right : α × Factory} (made : TwinAnswers left right) :
    ∃ a f g, left = (a, f) ∧ right = (a, g) ∧ Twins f g :=
  ⟨left.1, left.2, right.2, rfl, Prod.ext made.answer.symm rfl, made.twins⟩

namespace Twins
variable {f g : Factory}

theorem ofBlind (blind : f.systems.Probes Probe.Blind) : Twins f f := ⟨rfl, blind⟩

theorem systems (twins : Twins f g) : f.systems = g.systems := by
  change f.viewed.systems = g.viewed.systems
  rw [twins.same]

theorem hook (twins : Twins f g) : f.hook = g.hook := by
  change f.viewed.hook = g.viewed.hook
  rw [twins.same]

theorem systemFor (twins : Twins f g) (tag : Tag) : f.systemFor tag = g.systemFor tag := by
  change f.viewed.systemFor tag = g.viewed.systemFor tag
  rw [twins.same]

theorem note (twins : Twins f g) (n : Notice) : Twins (f.note n) (g.note n) :=
  ⟨congrArg (Factory.note · n) twins.same, twins.blind⟩

theorem noteAll (twins : Twins f g) (ns : List Notice) : Twins (f.noteAll ns) (g.noteAll ns) := by
  induction ns generalizing f g with
  | nil => exact twins
  | cons n ns ih => exact ih (twins.note n)

theorem called (twins : Twins f g) {c d : Call} (same : c.viewed = d.viewed) :
    Twins (f.called c) (g.called d) := by
  refine ⟨?_, twins.blind⟩
  calc (f.called c).viewed = f.viewed.called c.viewed := rfl
    _ = g.viewed.called d.viewed := by rw [twins.same, same]
    _ = (g.called d).viewed := rfl

theorem tell (twins : Twins f g) {c d : Call} (same : c.viewed = d.viewed) :
    Twins (f.tell c) (g.tell d) := by
  have told : g.systems.told c = g.systems.told d := by
    rw [← Systems.toldViewed twins.blind c, ← Systems.toldViewed twins.blind d, same]
  refine ⟨?_, Systems.blindTold twins.blind d⟩
  calc (f.tell c).viewed = { (f.called c).viewed with systems := f.systems.told c } := rfl
    _ = { (g.called d).viewed with systems := g.systems.told d } := by
      rw [(twins.called same).same, twins.systems, told]
    _ = (g.tell d).viewed := rfl

theorem create (twins : Twins f g) : TwinAnswers f.create g.create :=
  ⟨congrArg (fun f => f.create.1) twins.same, congrArg (fun f => f.create.2) twins.same,
    twins.blind⟩

theorem offer (twins : Twins f g) (e : Entity) (r : Record) :
    TwinAnswers (f.offer e r.viewed) (g.offer e r) := by
  have routed : f.systemFor r.viewed.tag = g.systemFor r.tag := twins.systemFor r.tag
  unfold Factory.offer
  rw [routed, twins.systems]
  cases g.systemFor r.tag with
  | none => exact ⟨rfl, twins.note _⟩
  | some system =>
    cases held : g.systems.get? system with
    | none => simpa only [held] using ⟨rfl, twins⟩
    | some state =>
      have told : Twins (f.tell (.create system e r.viewed)) (g.tell (.create system e r)) :=
        twins.tell rfl
      simp only [held, Systems.verdictViewed twins.blind held]
      cases system.verdict state e r with
      | error error => exact ⟨rfl, told.note _⟩
      | ok =>
        rw [Systems.storeNoticesViewed]
        exact ⟨rfl, told.noteAll _⟩

def seen (taken : SystemId × Record) : SystemId × Record := (taken.1, taken.2.viewed)

theorem offerAll (twins : Twins f g) (e : Entity) (taken : List (SystemId × Record))
    (b : Blueprint) :
    (offerAll e (taken.map seen) (b.map Record.viewed) f).1 = (offerAll e taken b g).1.map seen ∧
      Twins (offerAll e (taken.map seen) (b.map Record.viewed) f).2 (offerAll e taken b g).2 := by
  induction b generalizing taken f g with
  | nil => exact ⟨List.map_reverse.symm, twins⟩
  | cons r b ih =>
    obtain ⟨answer, f', g', left, right, next⟩ := (twins.offer e r).split
    rw [List.map_cons, Factory.offerAll, Factory.offerAll, left, right]
    cases answer with
    | none => exact ih next taken
    | some system => exact ih next ((system, r) :: taken)

theorem afterCreate (twins : Twins f g) (e : Entity) (taken : SystemId × Record) :
    Twins (f.afterCreate e (seen taken)) (g.afterCreate e taken) := by
  have told : Twins (f.tell (.afterCreate taken.1 e taken.2.viewed))
      (g.tell (.afterCreate taken.1 e taken.2)) := twins.tell rfl
  simp only [Factory.afterCreate, seen, told.systems]
  exact told.noteAll _

theorem afterAll (twins : Twins f g) (e : Entity) (taken : List (SystemId × Record)) :
    Twins ((taken.map seen).foldl (Factory.afterCreate e) f)
      (taken.foldl (Factory.afterCreate e) g) := by
  induction taken generalizing f g with
  | nil => exact twins
  | cons first taken ih => exact ih (twins.afterCreate e first)

theorem dispatch (twins : Twins f g) (e : Entity) (b : Blueprint) :
    Twins (f.dispatch e (b.map Record.viewed)) (g.dispatch e b) := by
  obtain ⟨answer, next⟩ := twins.offerAll e [] b
  change Twins ((Factory.offerAll e [] (b.map Record.viewed) f).1.foldl _ _) _
  rw [List.map_nil] at answer next
  rw [answer]
  exact next.afterAll e _

theorem attachChild (twins : Twins f g) (parent child : Entity) :
    Twins (f.attachChild parent child) (g.attachChild parent child) := by
  unfold Factory.attachChild
  split
  · have attached : Twins { f with systems := f.systems.attach parent child }
        { g with systems := g.systems.attach parent child } := by
      rw [twins.systems]
      exact ⟨congrArg (fun h => { h with systems := g.systems.attach parent child }) twins.same,
        twins.blind.attach parent child⟩
    exact attached.note _
  · exact twins

theorem rehook (twins : Twins f g) (hook : Hook) :
    Twins { f with hook := hook } { g with hook := hook } :=
  ⟨congrArg (fun h => { h with hook := hook }) twins.same, twins.blind⟩

theorem createChild (twins : Twins f g) {fill make : Entity → Factory → Factory}
    (filled : ∀ {f g : Factory} (e : Entity), Twins f g → Twins (fill e f) (make e g))
    (b : Blueprint) (parent : Entity) :
    TwinAnswers (f.createChild fill (b.map Record.viewed) parent)
      (g.createChild make b parent) := by
  unfold Factory.createChild
  rw [twins.hook]
  cases g.hook with
  | parentless =>
    obtain ⟨child, f', g', left, right, created⟩ := twins.create.split
    rw [left, right]
    exact ⟨rfl, filled child created⟩
  | attaching =>
    obtain ⟨child, f', g', left, right, created⟩ := twins.create.split
    rw [left, right]
    exact ⟨rfl, (filled child created).attachChild parent child⟩
  | scripted style failing calls =>
    have counted := twins.rehook (.scripted style failing (calls + 1))
    obtain ⟨child, f', g', left, right, created⟩ := counted.create.split
    simp only [createWithBlueprint, left, right]
    by_cases fails : calls ∈ failing
    · simp only [fails, if_true]
      exact ⟨rfl, counted⟩
    simp only [fails, if_false]
    cases style with
    | linking => exact ⟨rfl, (filled child created).called rfl⟩
    | populating =>
      have announced := created.called (c := .createChild .populating parent child) rfl
      cases child.isValid with
      | false => exact ⟨rfl, announced.note _⟩
      | true => exact ⟨rfl, filled child announced⟩
    | shallow => exact ⟨rfl, (created.dispatch child b).called rfl⟩

theorem buildChildren {ts : List Tree}
    (built : ∀ t ∈ ts, ∀ {f g : Factory} (e : Entity), Twins f g →
      Twins (build e t.viewed f) (build e t g)) (twins : Twins f g) (parent : Entity) :
    Twins (buildChildren parent (Tree.forestViewed ts) f) (buildChildren parent ts g) := by
  induction ts generalizing f g with
  | nil => exact twins
  | cons t ts ih =>
    have made := twins.createChild (built t (by simp)) t.blueprint parent
    obtain ⟨child, f', g', left, right, created⟩ := made.split
    rw [← t.blueprintViewed] at left
    rw [Tree.forestViewed, Factory.buildChildren, Factory.buildChildren, left, right]
    exact ih (fun u member => built u (by simp [member])) (created.note _)

theorem build (twins : Twins f g) (e : Entity) (t : Tree) :
    Twins (build e t.viewed f) (build e t g) := by
  induction t using Tree.byNodes generalizing f g e with
  | node b ts ih =>
    rw [Tree.viewed, Factory.build, Factory.build]
    exact (twins.dispatch e b).buildChildren (fun t member _ _ e same => ih t member same e) e

end Twins
end Factory
end EntityFoundry
