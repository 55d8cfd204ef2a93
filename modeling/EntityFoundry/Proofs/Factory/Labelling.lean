import EntityFoundry.Proofs.Factory.Growth
import EntityFoundry.Proofs.Factory.Initializing
import EntityFoundry.Proofs.Factory.Routes
import EntityFoundry.Proofs.Factory.Steps
/-! Healths that are labelled. They are so since they were started with names registered, and as no
system leaves the registry, nothing asked of a factory later changes that, another start
included. -/
namespace EntityFoundry

def Call.ShowsNames : Call → Prop
  | .start _ registered => .names ∈ registered
  | _ => True

namespace Systems

structure Labelled (all : Systems) : Prop where
  names : all.contains .names = true
  healths : (all.get? .healths).map HealthStore.labelled = some true

namespace Labelled
variable {all other : Systems}

theorem like (labelled : all.Labelled) (like : Like all other) : other.Labelled :=
  ⟨like.held .names ▸ labelled.names, like.states .healths (by simp) ▸ labelled.healths⟩

theorem told (labelled : all.Labelled) {c : Call} (shows : c.ShowsNames) :
    (all.told c).Labelled := by
  refine ⟨(containsTold all c _).trans labelled.names, ?_⟩
  obtain ⟨h, held, before⟩ := Option.map_eq_some_iff.mp labelled.healths
  have after : (SystemId.healths.told c h).labelled = true := by
    cases c with
    | start s registered => exact decide_eq_true shows
    | create s e r =>
      simp only [SystemId.told, SystemId.hear, SystemId.store]
      repeat' split
      all_goals exact before
    | afterCreate | destroy | createChild => exact before
  rw [getTold, held]
  split <;> simp [before, after]

theorem toldAll (labelled : all.Labelled) {cs : List Call} (shows : ∀ c ∈ cs, c.ShowsNames) :
    (cs.foldl Systems.told all).Labelled := by
  induction cs generalizing all with
  | nil => exact labelled
  | cons c cs ih =>
    obtain ⟨first, later⟩ := List.forall_mem_cons.mp shows
    exact ih (labelled.told first) later

theorem damaged (labelled : all.Labelled) {e : Entity} {amount left : Single} {hurt : Systems}
    (done : all.damage e amount = some (left, hurt)) : hurt.Labelled := by
  unfold damage at done
  simp only [bind, Option.bind_eq_some_iff] at done
  obtain ⟨h, held, health, found, last⟩ := done
  cases last
  refine ⟨(Registry.containsSet all _ _ _).trans labelled.names, ?_⟩
  rw [Registry.getSetSelf, held]
  have before := labelled.healths
  rw [held] at before
  exact before

end Labelled

theorem startsShowNames {all : Systems} (names : all.contains .names = true) (ss : List SystemId) :
    ∀ c ∈ ss.map (Call.start · all.keys), c.ShowsNames := by
  intro c member
  obtain ⟨s, -, rfl⟩ := List.mem_map.mp member
  exact (Registry.memKeys all .names).mpr names

theorem startedLabelled {all : Systems} (names : all.contains .names = true)
    (healths : all.contains .healths = true) {ss : List SystemId} (among : .healths ∈ ss) :
    ((ss.map (.start · all.keys)).foldl told all).Labelled := by
  -- The label is set when healths have their turn; the starts after it find names as well.
  obtain ⟨before, after, rfl⟩ := List.append_of_mem among
  rw [List.map_append, List.map_cons, List.foldl_append, List.foldl_cons]
  refine Labelled.toldAll ?_ (startsShowNames names after)
  obtain ⟨h, held⟩ := Option.isSome_iff_exists.mp ((containsToldAll all _ _).trans healths)
  refine ⟨(containsTold _ _ _).trans ((containsToldAll all _ _).trans names), ?_⟩
  have told : (Call.start .healths all.keys).system? = some .healths := rfl
  rw [getTold, if_pos told, held]
  exact congrArg some (decide_eq_true ((Registry.memKeys all .names).mpr names))

end Systems

namespace Factory

def Op.starts : Op → Bool
  | .start | .startWithNames _ | .startSchema .. => true
  | _ => false

theorem startingSystems (f : Factory) {op : Op} (starts : op.starts = true) :
    (f.apply op).systems = f.start.2.systems := by
  have named (names : List String) : (f.startWithNames names).2.systems = f.start.2.systems := by
    unfold startWithNames
    obtain ⟨result, g⟩ := f.start
    cases result <;> rfl
  cases op with
  | start => rfl
  | startWithNames names => exact named names
  | startSchema schema names =>
    refine Eq.trans ?_ (named names)
    simp only [apply, startSchema]
    obtain ⟨result, g⟩ := f.startWithNames names
    cases result with
    | error => rfl
    | ok =>
      simp only [startFinalizer, startLoader]
      repeat' split
      all_goals rfl
  | _ => cases starts

theorem Seated.startLabels {f : Factory} (seated : f.Seated) (names : .names ∈ f.attached)
    (healths : .healths ∈ f.attached) {op : Op} (starts : op.starts = true) :
    (f.apply op).systems.Labelled := by
  rw [startingSystems f starts, (started f).systems]
  exact Systems.startedLabelled (seated.held _ names) (seated.held _ healths) healths

/-! Calls that create, fill or destroy begin with the systems as they are. -/

theorem preparingSystems (f : Factory) (e : Entity) (name : String) (data : Bytes) :
    (f.preparing e name data).2.systems = f.systems := by
  unfold preparing
  cases f.loader with
  | none => rfl
  | some schema =>
    cases read : schema.load f.types data with
    | error error => simp only [read]
    | ok loaded =>
      obtain ⟨journal, noted⟩ := noteAllJournal f (loaded.2.map .schema)
      simp only [read, noted]

theorem blueprintAssetSystems (f : Factory) (name : String) :
    (f.blueprintAsset name).2.systems = f.systems := by
  unfold blueprintAsset
  cases read : f.cache.getOrLoad (f.config.filename name) with
  | mk answer cache =>
    simp only [read]
    cases answer <;> rfl

theorem startNamedSystems (f : Factory) (e : Entity) (name : String) :
    (f.startNamed e name).2.2.systems = f.systems := by
  have prepared : (f.preparingNamed e name).2.systems = f.systems := by
    unfold preparingNamed
    split
    · rfl
    split
    · rfl
    have read := blueprintAssetSystems f name
    generalize f.blueprintAsset name = made at read ⊢
    obtain ⟨result, g⟩ := made
    cases result with
    | error error => exact read
    | ok data => exact (preparingSystems g e name data).trans read
  unfold startNamed
  generalize f.preparingNamed e name = made at prepared ⊢
  obtain ⟨result, g⟩ := made
  cases result <;> exact prepared

theorem startFromDataSystems (f : Factory) (data : Bytes) (name : String)
    {failing : FactoryError → Factory → Factory}
    (kept : ∀ error f, (failing error f).systems = f.systems) :
    (f.startFromData data name failing).2.factory.systems = f.systems := by
  unfold startFromData
  split
  · exact kept _ f
  · have prepared := preparingSystems f.create.2 f.create.1 name data
    cases made : f.create.2.preparing f.create.1 name data with
    | mk result g =>
      rw [made] at prepared
      simp only [made]
      cases result with
      | error error => exact (kept error g).trans prepared
      | ok tasks => exact prepared

theorem openingSystems (f : Factory) {op : Op} (other : op.arranges = false) :
    (f.opening op).2.factory.systems = f.systems := by
  cases op with
  | createNamed name => exact startNamedSystems f.create.2 f.create.1 name
  | populateNamed e name => exact startNamedSystems f e name
  | populateWithTree e t =>
    simp only [opening]
    split <;> rfl
  | createFromData data name => exact startFromDataSystems f data name fun _ _ => rfl
  | tryCreateFromData data name => exact startFromDataSystems f data name fun _ _ => rfl
  | destroyQueued =>
    simp only [opening, startDraining]
    split <;> rfl
  | create | issueMany | createWithBlueprint | createWithTree => rfl
  | destroy | queueForDestruction | drainQueue => rfl
  | _ => cases other

theorem nodeCallsShowNames (e : Entity) (offers : List Offer) (all : Systems) :
    ∀ c ∈ nodeCalls e offers all, c.ShowsNames := by
  intro c member
  rcases List.mem_append.mp member with offered | after
  · obtain ⟨offer, -, rfl⟩ := List.mem_map.mp offered
    trivial
  · obtain ⟨offer, -, rfl⟩ := List.mem_map.mp after
    trivial

section
variable {f : Factory} (labelled : f.systems.Labelled)
include labelled

theorem dispatchLabelled (e : Entity) (b : Blueprint) : (f.dispatch e b).systems.Labelled :=
  (labelled.toldAll (nodeCallsShowNames e _ _)).like (dispatchGrown f e b).systems

theorem performLabelled (task : Task) : (f.perform task).factory.systems.Labelled := by
  cases task with
  | dispatch e b => exact dispatchLabelled labelled e b
  | child parent t =>
    have same : (f.startChild parent t).factory.systems = f.systems := by
      unfold startChild
      cases f.hook with
      | parentless | attaching => rfl
      | scripted style failing calls =>
        by_cases fails : calls ∈ failing
        · simp only [fails, if_true]
        · simp only [fails, if_false]
          rfl
    exact same ▸ labelled
  | attach parent child => exact labelled.like (Grown.attachChild f parent child).systems
  | tell s e =>
    unfold perform
    cases held : f.systems.get? s with
    | none => simpa only [held] using labelled
    | some state =>
      simp only [held]
      exact labelled.told (c := .destroy s e) trivial
  | announce | note | name | push | forget => exact labelled

theorem startingLabelled {op : Op} (starts : op.starts = true) :
    (f.apply op).systems.Labelled := by
  rw [startingSystems f starts, (started f).systems]
  exact labelled.toldAll (Systems.startsShowNames labelled.names f.attached)

theorem setUpLabelled (seated : f.Seated) {op : Op} (setsUp : op.setsUp = true) :
    (f.apply op).systems.Labelled := by
  have made := SetUp.apply seated setsUp
  obtain ⟨h, held, before⟩ := Option.map_eq_some_iff.mp labelled.healths
  obtain ⟨names, found⟩ := Option.isSome_iff_exists.mp labelled.names
  refine ⟨Option.isSome_iff_exists.mpr ⟨names, made.held found⟩, ?_⟩
  rw [made.held held]
  exact congrArg some before

theorem openingLabelled (seated : f.Seated) (op : Op) :
    (f.opening op).2.factory.systems.Labelled := by
  cases arranging : op.arranges with
  | false => exact openingSystems f arranging ▸ labelled
  | true =>
    cases op with
    | registerSystem | createSystem | attachRegistered | registerTag =>
      exact setUpLabelled labelled seated rfl
    | start | startWithNames | startSchema => exact startingLabelled labelled rfl
    | startLoader | startFinalizer =>
      simp only [opening, apply, startLoader, startFinalizer]
      split <;> exact labelled
    | setLoader | setFinalizer | setHook | setCache => exact labelled
    | blueprintAsset name => exact blueprintAssetSystems f name ▸ labelled
    | finalize b =>
      simp only [opening, apply, finalize]
      split <;> exact labelled
    | finalizeTree t =>
      simp only [opening, apply, finalizeTree]
      split
      · exact labelled
      · obtain ⟨journal, noted⟩ := noteAllJournal f _
        rw [noted]
        exact labelled
    | damage e amount =>
      simp only [opening, apply, damage]
      split
      next hurt => exact labelled.damaged hurt
      next => exact labelled
    | _ => cases arranging

end

def KeepsLabels (f g : Factory) : Prop :=
  f.Seated ∧ f.systems.Labelled → g.Seated ∧ g.systems.Labelled

namespace KeepsLabels

theorem refl (f : Factory) : KeepsLabels f f := id

theorem trans {f g h : Factory} (first : KeepsLabels f g) (second : KeepsLabels g h) :
    KeepsLabels f h := second ∘ first

theorem perform (f : Factory) (task : Task) : KeepsLabels f (f.perform task).factory :=
  fun ⟨seated, labelled⟩ =>
    ⟨(Does.performAny f task).seated seated, performLabelled labelled task⟩

theorem opening (f : Factory) (op : Op) : KeepsLabels f (f.opening op).2.factory := by
  rintro ⟨seated, labelled⟩
  refine ⟨?_, openingLabelled labelled seated op⟩
  cases takes : op.takes with
  | false =>
    have does : Does (fun _ => True) f (f.opening op).2 := .opening f takes
    exact does.seated seated
  | true =>
    rw [(openingTakes f takes).1]
    exact seated.keep rfl rfl fun _ held => held

theorem run (f : Factory) (ops : List Op) : KeepsLabels f (f.run ops) :=
  runSteps refl trans perform opening f ops

end KeepsLabels

end Factory
end EntityFoundry
