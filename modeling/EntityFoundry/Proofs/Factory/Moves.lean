import EntityFoundry.Factory.Destruction
import EntityFoundry.Proofs.Blueprint
import EntityFoundry.Proofs.Factory.Arranging
/-! The moves a factory makes. Whatever is asked of it, what it does is a sequence of a few kinds of
steps, so that a property all of them keep is kept by every operation. A child is attached to its
parent only once everything below it is made, and that has been issued nothing else meanwhile. -/
namespace EntityFoundry

namespace Factory

inductive Moves : Factory → Factory → Prop
  | refl (f : Factory) : Moves f f
  | trans {f g h : Factory} (first : Moves f g) (second : Moves g h) : Moves f h
  | note (f : Factory) (n : Notice) : Moves f (f.note n)
  | called (f : Factory) (c : Call) : Moves f (f.called c)
  | tell (f : Factory) (c : Call) : Moves f (f.tell c)
  | issue (f : Factory) (n : Nat) : Moves f { f with counter := ⟨f.counter.issued + n⟩ }
  | child {f g : Factory} (parent : Entity) (inside : Moves f.create.2 g) :
      Moves f (g.attachChild parent f.create.1)
  | named (f : Factory) (names : Dict Entity String) : Moves f { f with blueprintNames := names }
  | queued (f : Factory) (queue : List Entity) : Moves f { f with queue := queue }
  | registered {f : Factory} {s : SystemId} {p : Probe} {systems : Systems}
      (created : f.systems.create? s (s.fresh p) = some systems) :
      Moves f { f with systems := systems }
  | damaged {f : Factory} {e : Entity} {amount left : Single} {systems : Systems}
      (hurt : f.systems.damage e amount = some (left, systems)) :
      Moves f { f with systems := systems }
  | routed (f : Factory) (routes : Dict Tag SystemId) : Moves f { f with routes := routes }
  | placed {f : Factory} {s : SystemId} (held : f.systems.contains s = true) : Moves f (f.place s)
  | adjusted (f : Factory) (types : TypeIndex) (loader finalizer : Option Schema)
      (startup : Startup SystemId) (cache : Cache) (hook : Hook) :
      Moves f { f with
        types := types, loader := loader, finalizer := finalizer, startup := startup
        cache := cache, hook := hook }

theorem Arranges.moves {f g : Factory} (arranges : Arranges (fun _ => True) f g) : Moves f g := by
  induction arranges with
  | refl f => exact .refl f
  | trans first second ihf ihs => exact ihf.trans ihs
  | note f n => exact .note f n
  | told f about => exact .tell f _
  | registered created => exact .registered created
  | damaged hurt => exact .damaged hurt
  | routed f routes => exact .routed f routes
  | placed held => exact .placed held
  | adjusted => exact .adjusted ..

def rehooked (f : Factory) (hook : Hook) : Factory := { f with hook := hook }

inductive ChildMade (fill : Entity → Factory → Factory) (b : Blueprint) (parent : Entity)
    (f : Factory) : Entity × Factory → Prop
  | parentless : ChildMade fill b parent f (f.create.1, fill f.create.1 f.create.2)
  | attaching : ChildMade fill b parent f
      (f.create.1, (fill f.create.1 f.create.2).attachChild parent f.create.1)
  | failing (hook : Hook) : ChildMade fill b parent f (.invalid, f.rehooked hook)
  | linking (hook : Hook) (c : Call) : ChildMade fill b parent f
      ((f.rehooked hook).create.1,
        (fill (f.rehooked hook).create.1 (f.rehooked hook).create.2).called c)
  | populating (hook : Hook) (c : Call) : ChildMade fill b parent f
      ((f.rehooked hook).create.1,
        fill (f.rehooked hook).create.1 ((f.rehooked hook).create.2.called c))
  | refused (hook : Hook) (c : Call) : ChildMade fill b parent f
      (.invalid, ((f.rehooked hook).create.2.called c).note .invalidPopulated)
  | shallow (hook : Hook) (c : Call) : ChildMade fill b parent f
      (((f.rehooked hook).createWithBlueprint b).1,
        ((f.rehooked hook).createWithBlueprint b).2.called c)

theorem childMade (f : Factory) (fill : Entity → Factory → Factory) (b : Blueprint)
    (parent : Entity) : ChildMade fill b parent f (f.createChild fill b parent) := by
  unfold createChild
  cases f.hook with
  | parentless => exact .parentless
  | attaching => exact .attaching
  | scripted style failing calls =>
    by_cases fails : calls ∈ failing
    · simp only [fails, if_true]
      exact .failing _
    simp only [fails, if_false]
    cases style with
    | linking => exact .linking (.scripted .linking failing (calls + 1)) _
    | populating =>
      cases { f with hook := .scripted .populating failing (calls + 1) }.create.1.isValid with
      | true =>
        simp only [if_true]
        exact .populating (.scripted .populating failing (calls + 1)) _
      | false =>
        simp only [Bool.false_eq_true, if_false]
        exact .refused (.scripted .populating failing (calls + 1)) _
    | shallow => exact .shallow (.scripted .shallow failing (calls + 1)) _

namespace Moves
variable {f g : Factory}

theorem fold {α : Type} {step : Factory → α → Factory} (moves : ∀ f x, Moves f (step f x))
    (xs : List α) (f : Factory) : Moves f (xs.foldl step f) := by
  induction xs generalizing f with
  | nil => exact .refl f
  | cons x xs ih => exact (moves f x).trans (ih (step f x))

theorem noteAll (f : Factory) (ns : List Notice) : Moves f (f.noteAll ns) := fold note ns f

/-! Creating. -/

theorem create (f : Factory) : Moves f f.create.2 := .issue f 1

theorem dispatch (f : Factory) (e : Entity) (b : Blueprint) : Moves f (f.dispatch e b) :=
  (Arranges.dispatch f trivial b).moves

theorem rehook (f : Factory) (hook : Hook) : Moves f { f with hook := hook } :=
  (Arranges.rehook f hook).moves

theorem createWithBlueprint (f : Factory) (b : Blueprint) : Moves f (f.createWithBlueprint b).2 :=
  (create f).trans (dispatch _ _ b)

theorem createChild (f : Factory) {fill : Entity → Factory → Factory}
    (filled : ∀ e f, Moves f (fill e f)) (b : Blueprint) (parent : Entity) :
    Moves f (f.createChild fill b parent).2 := by
  have made := f.childMade fill b parent
  generalize f.createChild fill b parent = answer at made ⊢
  cases made with
  | parentless => exact (create f).trans (filled _ _)
  | attaching => exact child parent (filled _ _)
  | failing hook => exact rehook f hook
  | linking hook c =>
    exact (rehook f hook).trans ((create _).trans ((filled _ _).trans (.called _ c)))
  | populating hook c =>
    exact (rehook f hook).trans ((create _).trans ((called _ c).trans (filled _ _)))
  | refused hook c => exact (rehook f hook).trans ((create _).trans ((called _ c).trans (.note _ _)))
  | shallow hook c => exact (rehook f hook).trans ((createWithBlueprint _ b).trans (.called _ c))

theorem noteChild (f : Factory) (parent child : Entity) : Moves f (f.noteChild parent child) :=
  .note f _

theorem buildChildren {ts : List Tree}
    (built : ∀ t ∈ ts, ∀ e f, Moves f (Factory.build e t f)) (parent : Entity) (f : Factory) :
    Moves f (Factory.buildChildren parent ts f) := by
  induction ts generalizing f with
  | nil => exact .refl f
  | cons t ts ih =>
    have made := createChild f (built t (by simp)) t.blueprint parent
    rw [Factory.buildChildren]
    generalize f.createChild (fun e f => Factory.build e t f) t.blueprint parent = left at made ⊢
    obtain ⟨child, g⟩ := left
    have rest := ih (fun u member => built u (by simp [member])) (g.noteChild parent child)
    exact made.trans ((noteChild g parent child).trans rest)

theorem build (e : Entity) (t : Tree) (f : Factory) : Moves f (Factory.build e t f) := by
  induction t using Tree.byNodes generalizing e f with
  | node b ts ih =>
    exact (dispatch f e b).trans (buildChildren ih e _)

theorem createWithTree (f : Factory) (t : Tree) : Moves f (f.createWithTree t).2 :=
  (create f).trans (build _ t _)

theorem populateWithTree (f : Factory) (e : Entity) (t : Tree) :
    Moves f (f.populateWithTree e t).2 := by
  unfold Factory.populateWithTree
  split
  · exact build e t f
  · exact .note f _

/-! Assets. -/

theorem blueprintAsset (f : Factory) (name : String) : Moves f (f.blueprintAsset name).2 :=
  (Arranges.blueprintAsset f name).moves

theorem populateFromData (f : Factory) (e : Entity) (name : String) (data : Bytes) :
    Moves f (f.populateFromData e name data).2 := by
  unfold Factory.populateFromData
  cases f.loader with
  | none => exact .refl f
  | some schema =>
    cases read : schema.load f.types data with
    | error error =>
      simp only [read]
      exact .refl f
    | ok loaded =>
      simp only [read]
      exact (noteAll f _).trans ((build e _ _).trans ((named _ _).trans (.note _ _)))

theorem tryPopulateNamed (f : Factory) (e : Entity) (name : String) :
    Moves f (f.tryPopulateNamed e name).2 := by
  unfold Factory.tryPopulateNamed
  split
  · exact .refl f
  split
  · exact .refl f
  have read := blueprintAsset f name
  cases made : f.blueprintAsset name with
  | mk result g =>
    rw [made] at read
    cases result with
    | error error => exact read
    | ok data => exact read.trans (populateFromData g e name data)

theorem populateNamed (f : Factory) (e : Entity) (name : String) :
    Moves f (f.populateNamed e name).2 := by
  have tried := tryPopulateNamed f e name
  unfold Factory.populateNamed
  cases made : f.tryPopulateNamed e name with
  | mk result g =>
    rw [made] at tried
    cases result with
    | error error => exact tried.trans (.note _ _)
    | ok => exact tried

theorem createNamed (f : Factory) (name : String) : Moves f (f.createNamed name).2 :=
  (create f).trans (populateNamed _ _ name)

theorem tryCreateFromData (f : Factory) (data : Bytes) (name : String) :
    Moves f (f.tryCreateFromData data name).2 := by
  unfold Factory.tryCreateFromData
  split
  · exact .refl f
  · exact (create f).trans (populateFromData _ _ name data)

theorem createFromData (f : Factory) (data : Bytes) (name : String) :
    Moves f (f.createFromData data name).2 := by
  have tried := tryCreateFromData f data name
  unfold Factory.createFromData
  cases made : f.tryCreateFromData data name with
  | mk result g =>
    rw [made] at tried
    cases result with
    | error error => exact tried.trans (.note _ _)
    | ok => exact tried

/-! Destroying. -/

theorem destroyIn (e : Entity) (f : Factory) (s : SystemId) :
    Moves f (Factory.destroyIn e f s) := by
  unfold Factory.destroyIn
  cases f.systems.get? s with
  | none => exact .refl f
  | some state => exact (tell f _).trans (queued _ _)

theorem destroy (f : Factory) (e : Entity) : Moves f (f.destroy e) :=
  (fold (destroyIn e) _ f).trans ((named _ _).trans (.note _ _))

theorem destroyQueued (f : Factory) : Moves f f.destroyQueued := by
  unfold Factory.destroyQueued
  cases f.queue with
  | nil => exact .refl f
  | cons e queue => exact (queued f []).trans ((fold destroy _ _).trans (.note _ _))

/-! What is held. -/

theorem attachCounter (f : Factory) (parent child : Entity) :
    (f.attachChild parent child).counter = f.counter := by
  unfold Factory.attachChild
  split <;> rfl

theorem attachContains (f : Factory) (parent child : Entity) (s : SystemId) :
    (f.attachChild parent child).systems.contains s = f.systems.contains s := by
  unfold Factory.attachChild
  split
  · exact Systems.containsAttach f.systems parent child s
  · rfl

theorem contains (moves : Moves f g) {s : SystemId} (held : f.systems.contains s = true) :
    g.systems.contains s = true := by
  induction moves with
  | trans first second ihf ihs => exact ihs (ihf held)
  | tell f c => exact (Systems.containsTold f.systems c s).trans held
  | child parent inside ih => exact (attachContains _ parent _ s).trans (ih held)
  | registered created =>
    obtain ⟨state, found⟩ := Option.isSome_iff_exists.mp held
    simp [Registry.contains, Registry.getCreated created, found]
  | damaged hurt =>
    obtain ⟨h, rfl⟩ := Systems.damageSet hurt
    exact (Registry.containsSet _ s .healths h).trans held
  | @placed f t other =>
    unfold place
    split <;> exact held
  | refl | note | called | issue | named | queued | routed | adjusted => exact held

theorem staysAttached (moves : Moves f g) {s : SystemId} (attached : s ∈ f.attached) :
    s ∈ g.attached := by
  induction moves with
  | trans first second ihf ihs => exact ihs (ihf attached)
  | child parent inside ih =>
    unfold Factory.attachChild
    split <;> exact ih attached
  | placed held =>
    unfold place
    split
    · exact attached
    · exact List.mem_append_left _ attached
  | refl | note | called | tell | issue | named | queued | registered | damaged | routed
  | adjusted => exact attached

end Moves
end Factory
end EntityFoundry
