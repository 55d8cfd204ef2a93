import EntityFoundry.Factory.Assets
import EntityFoundry.Factory.Starting
import EntityFoundry.Proofs.Systems.Told
/-! What is arranged around entities: systems are attached, routed to and started, records are
offered to them, assets are read and written, health is taken. None of it issues an entity, queues
one for destruction or gives one a blueprint name. -/
namespace EntityFoundry

def SystemId.fresh (p : Probe) : (s : SystemId) → s.State
  | .names => ({} : Dict Entity String)
  | .healths => ({} : HealthStore)
  | .transforms => ({} : Dict Entity Transform)
  | .hierarchy => ({} : Links)
  | .plain => ()
  | .probe _ => p

namespace Factory

inductive Arranges (offered : Entity → Prop) : Factory → Factory → Prop
  | refl (f : Factory) : Arranges offered f f
  | trans {f g h : Factory} (first : Arranges offered f g) (second : Arranges offered g h) :
      Arranges offered f h
  | note (f : Factory) (n : Notice) : Arranges offered f (f.note n)
  | told (f : Factory) {c : Call} (about : ∀ s e r, c = .create s e r → offered e) :
      Arranges offered f (f.tell c)
  | registered {f : Factory} {s : SystemId} {p : Probe} {systems : Systems}
      (created : f.systems.create? s (s.fresh p) = some systems) :
      Arranges offered f { f with systems := systems }
  | damaged {f : Factory} {e : Entity} {amount left : Single} {systems : Systems}
      (hurt : f.systems.damage e amount = some (left, systems)) :
      Arranges offered f { f with systems := systems }
  | routed (f : Factory) (routes : Dict Tag SystemId) : Arranges offered f { f with routes := routes }
  | placed {f : Factory} {s : SystemId} (held : f.systems.contains s = true) :
      Arranges offered f (f.place s)
  | adjusted (f : Factory) (types : TypeIndex) (loader finalizer : Option Schema)
      (startup : Startup SystemId) (cache : Cache) (hook : Hook) :
      Arranges offered f { f with
        types := types, loader := loader, finalizer := finalizer, startup := startup
        cache := cache, hook := hook }

namespace Arranges
variable {offered : Entity → Prop} {f g : Factory}

theorem fold {α : Type} {step : Factory → α → Factory} (arranges : ∀ f x, Arranges offered f (step f x))
    (xs : List α) (f : Factory) : Arranges offered f (xs.foldl step f) := by
  induction xs generalizing f with
  | nil => exact .refl f
  | cons x xs ih => exact (arranges f x).trans (ih (step f x))

theorem noteAll (f : Factory) (ns : List Notice) : Arranges offered f (f.noteAll ns) := fold note ns f

theorem contains (arranges : Arranges offered f g) {s : SystemId} (held : f.systems.contains s = true) :
    g.systems.contains s = true := by
  induction arranges with
  | trans first second ihf ihs => exact ihs (ihf held)
  | @told f c about => exact (Systems.containsTold f.systems c s).trans held
  | registered created =>
    obtain ⟨state, found⟩ := Option.isSome_iff_exists.mp held
    simp [Registry.contains, Registry.getCreated created, found]
  | damaged hurt =>
    obtain ⟨h, rfl⟩ := Systems.damageSet hurt
    exact (Registry.containsSet _ s .healths h).trans held
  | @placed f t other =>
    unfold place
    split <;> exact held
  | refl | note | routed | adjusted => exact held

theorem rest (arranges : Arranges offered f g) : g.counter = f.counter ∧ g.queue = f.queue ∧
    g.blueprintNames = f.blueprintNames := by
  induction arranges with
  | trans first second ihf ihs =>
    exact ⟨ihs.1.trans ihf.1, ihs.2.1.trans ihf.2.1, ihs.2.2.trans ihf.2.2⟩
  | @placed f s held =>
    unfold place
    split <;> exact ⟨rfl, rfl, rfl⟩
  | refl | note | told | registered | damaged | routed | adjusted => exact ⟨rfl, rfl, rfl⟩

theorem mono {wider : Entity → Prop} (arranges : Arranges offered f g)
    (weaker : ∀ e, offered e → wider e) : Arranges wider f g := by
  induction arranges with
  | refl f => exact .refl f
  | trans first second ihf ihs => exact ihf.trans ihs
  | note f n => exact .note f n
  | told f about => exact .told f fun s e r same => weaker e (about s e r same)
  | registered created => exact .registered created
  | damaged hurt => exact .damaged hurt
  | routed f routes => exact .routed f routes
  | placed held => exact .placed held
  | adjusted => exact .adjusted ..

/-! Systems. -/

theorem registerSystem (f : Factory) (s : SystemId) (p : Probe) :
    Arranges offered f (f.registerSystem s (s.fresh p)).2 := by
  unfold Factory.registerSystem
  cases created : f.systems.create? s (s.fresh p) with
  | none => exact .refl f
  | some systems => exact (registered created).trans (.note _ _)

theorem registerTag (f : Factory) (s : SystemId) (tag : Tag) :
    Arranges offered f (f.registerTag s tag) := by
  have routes : Arranges offered f { f with routes := f.routes.insert tag s } := .routed f _
  unfold Factory.registerTag
  cases f.routes.get? tag with
  | none => exact routes
  | some previous =>
    by_cases same : previous = s
    · simpa [same] using routes
    · simpa [same] using routes.trans (.note _ _)

theorem declareDependency (f : Factory) (s dependency : SystemId) :
    Arranges offered f (f.declareDependency s dependency) := by
  unfold Factory.declareDependency
  split
  · exact .refl f
  · have declared : Arranges offered f { f with startup := f.startup.declare s dependency } :=
      .adjusted f f.types f.loader f.finalizer _ f.cache f.hook
    exact declared.trans (.note _ _)

theorem attachSystem {f : Factory} {s : SystemId} (held : f.systems.contains s = true)
    (state : s.State) : Arranges offered f (f.attachSystem s state) := by
  have routed : Arranges offered f ((s.tags state).foldl (·.registerTag s) f) :=
    fold (fun f tag => registerTag f s tag) (s.tags state) f
  have declared := routed.trans
    (fold (fun f needed => declareDependency f s needed) (s.needs state) _)
  exact declared.trans ((placed (declared.contains held)).trans (.note _ _))

theorem attachRegistered (f : Factory) (s : SystemId) :
    Arranges offered f (f.attachRegistered s).2 := by
  unfold Factory.attachRegistered
  cases held : f.systems.get? s with
  | none => exact .note f _
  | some state => exact attachSystem (by simp [Registry.contains, held]) state

theorem createSystem (f : Factory) (s : SystemId) (p : Probe) :
    Arranges offered f (f.createSystem s (s.fresh p)).2 := by
  unfold Factory.createSystem Factory.registerSystem
  cases created : f.systems.create? s (s.fresh p) with
  | none => exact .note f _
  | some systems =>
    have held : systems.contains s = true := by
      simp [Registry.contains, Registry.getCreated created, Registry.find]
    exact (registered created).trans ((note _ _).trans (attachSystem held _))

/-! Starting. -/

theorem startSystem (f : Factory) (s : SystemId) : Arranges offered f (f.startSystem s) := by
  have starting : Arranges offered f (f.tell (.start s f.systems.keys)) := told f nofun
  exact starting.trans (adjusted _ _ _ _ _ _ _)

theorem start (f : Factory) : Arranges offered f f.start.2 := by
  have started : Arranges offered f (f.attached.foldl Factory.startSystem f) :=
    fold startSystem f.attached f
  unfold Factory.start
  cases checked : (f.attached.foldl Factory.startSystem f).startup.check with
  | error violations =>
    simp only [checked]
    exact started.trans (.note _ _)
  | ok =>
    simp only [checked]
    exact started.trans (.note _ _)

theorem startWithNames (f : Factory) (names : List String) :
    Arranges offered f (f.startWithNames names).2 := by
  have started : Arranges offered f f.start.2 := start f
  unfold Factory.startWithNames
  cases made : f.start with
  | mk result g =>
    rw [made] at started
    cases result with
    | error error => exact started
    | ok => exact started.trans ((adjusted g (.ofNames names) _ _ _ _ _).trans (.note _ _))

theorem setLoader (f : Factory) (schema : Schema) : Arranges offered f (f.setLoader schema) :=
  .adjusted f f.types (some schema) f.finalizer f.startup f.cache f.hook

theorem setFinalizer (f : Factory) (schema : Schema) : Arranges offered f (f.setFinalizer schema) :=
  .adjusted f f.types f.loader (some schema) f.startup f.cache f.hook

theorem rehook (f : Factory) (hook : Hook) : Arranges offered f { f with hook := hook } :=
  .adjusted f f.types f.loader f.finalizer f.startup f.cache hook

theorem startLoader (f : Factory) (schema : Schema) : Arranges offered f (f.startLoader schema) := by
  unfold Factory.startLoader
  split
  · exact (note f _).trans (setLoader _ schema)
  · exact setLoader f schema

theorem startFinalizer (f : Factory) (schema : Schema) :
    Arranges offered f (f.startFinalizer schema) := by
  unfold Factory.startFinalizer
  split
  · exact (note f _).trans (setFinalizer _ schema)
  · exact setFinalizer f schema

theorem startSchema (f : Factory) (schema : Schema) (names : List String) :
    Arranges offered f (f.startSchema schema names).2 := by
  have started : Arranges offered f (f.startWithNames names).2 := startWithNames f names
  unfold Factory.startSchema
  cases made : f.startWithNames names with
  | mk result g =>
    rw [made] at started
    cases result with
    | error error => exact started
    | ok => exact started.trans ((startLoader g schema).trans (startFinalizer _ schema))

/-! Assets. -/

theorem recache (f : Factory) (cache : Cache) : Arranges offered f { f with cache := cache } :=
  .adjusted f f.types f.loader f.finalizer f.startup cache f.hook

theorem blueprintAsset (f : Factory) (name : String) :
    Arranges offered f (f.blueprintAsset name).2 := by
  unfold Factory.blueprintAsset
  cases read : f.cache.getOrLoad (f.config.filename name) with
  | mk answer cache =>
    have cached : Arranges offered f { f with cache := cache } := recache f cache
    simp only [read]
    cases answer with
    | loaded size bytes => exact cached.trans (.note _ _)
    | cached | failed => exact cached

theorem finalize (f : Factory) (b : Blueprint) : Arranges offered f (f.finalize b).2 := by
  unfold Factory.finalize
  cases f.finalizer with
  | none => exact .note f _
  | some schema => exact .refl f

theorem finalizeTree (f : Factory) (t : Tree) : Arranges offered f (f.finalizeTree t).2 := by
  unfold Factory.finalizeTree
  cases f.finalizer with
  | none => exact .note f _
  | some schema => exact noteAll f _

/-! Offers. -/

theorem offer (f : Factory) {e : Entity} (allowed : offered e) (r : Record) :
    Arranges offered f (f.offer e r).2 := by
  unfold Factory.offer
  cases f.systemFor r.tag with
  | none => exact .note f _
  | some s =>
    cases held : f.systems.get? s with
    | none =>
      simp only [held]
      exact .refl f
    | some state =>
      have told : Arranges offered f (f.tell (.create s e r)) :=
        told f fun _ _ _ same => by cases same; exact allowed
      simp only [held]
      cases s.verdict state e r with
      | error error => exact told.trans (.note _ _)
      | ok => exact told.trans (noteAll _ _)

theorem offerAll {e : Entity} (allowed : offered e) (taken : List (SystemId × Record))
    (b : Blueprint) (f : Factory) : Arranges offered f (Factory.offerAll e taken b f).2 := by
  induction b generalizing taken f with
  | nil => exact .refl f
  | cons r b ih =>
    have first := offer f allowed r
    rw [Factory.offerAll]
    generalize f.offer e r = made at first ⊢
    obtain ⟨answer, g⟩ := made
    cases answer with
    | none => exact first.trans (ih taken g)
    | some s => exact first.trans (ih ((s, r) :: taken) g)

theorem afterCreate (e : Entity) (f : Factory) (taken : SystemId × Record) :
    Arranges offered f (Factory.afterCreate e f taken) := (told f nofun).trans (noteAll _ _)

theorem dispatch (f : Factory) {e : Entity} (allowed : offered e) (b : Blueprint) :
    Arranges offered f (f.dispatch e b) :=
  (offerAll allowed [] b f).trans (fold (afterCreate e) _ _)

end Arranges
end Factory
end EntityFoundry
