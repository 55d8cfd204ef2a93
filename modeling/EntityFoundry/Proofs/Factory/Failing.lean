import EntityFoundry.Proofs.Factory.AssetPath
import EntityFoundry.Proofs.Schema.Limits
/-! Creations that fail. What keeps an entity from being created is said beside the operations, by
causes in the order in which they are looked for, each with the factory that it leaves: as it was,
but for an entity issued and an asset read. Nothing else has changed then, no call was made, and
only notices were added. A tree too deep to be loaded fails so wherever its bytes are used. -/
namespace EntityFoundry

inductive Cache.Finds (c : Cache) (filename : String) : Bytes → Cache → Prop
  | held {bytes} (found : c.lookup filename = some bytes) : Finds c filename bytes c
  | read {bytes} (absent : c.lookup filename = none)
      (loads : c.source.load filename = .ok bytes) :
      Finds c filename bytes ⟨c.source.counted, c.assets.insert filename bytes⟩

theorem Cache.findsOrFails (c : Cache) (filename : String) :
    (∃ bytes cache, c.Finds filename bytes cache) ∨
      c.lookup filename = none ∧ ∃ error, c.source.load filename = .error error := by
  cases found : c.lookup filename with
  | some bytes => exact .inl ⟨bytes, c, .held found⟩
  | none =>
    cases loads : c.source.load filename with
    | error error => exact .inr ⟨rfl, error, rfl⟩
    | ok bytes => exact .inl ⟨bytes, _, .read found loads⟩

namespace Factory

inductive Hindered (f : Factory) (e : Entity) (name : String) : FactoryError → Factory → Prop
  | invalid (none : e = .invalid) : Hindered f e name .invalidEntity f
  | withoutLoader (valid : e ≠ .invalid) (none : f.loader = none) :
      Hindered f e name .missingLoader f
  | unreadable {schema error} (valid : e ≠ .invalid) (loads : f.loader = some schema)
      (absent : f.cache.lookup (f.config.filename name) = none)
      (fails : f.cache.source.load (f.config.filename name) = .error error) :
      Hindered f e name (.asset error)
        { f with cache := { f.cache with source := f.cache.source.counted } }
  | undecodable {schema bytes cache error} (valid : e ≠ .invalid) (loads : f.loader = some schema)
      (found : f.cache.Finds (f.config.filename name) bytes cache)
      (fails : schema.load f.types bytes = .error error) :
      Hindered f e name (.codec error) { f with cache := cache }

inductive Rejected (f : Factory) (data : Bytes) : FactoryError → Factory → Prop
  | withoutLoader (none : f.loader = none) : Rejected f data .missingLoader f
  | undecodable {schema error} (loads : f.loader = some schema)
      (fails : schema.load f.types data = .error error) :
      Rejected f data (.codec error) { f with counter := ⟨f.counter.issued + 1⟩ }

structure FailedAs (f : Factory) (failure : Notice) (left g : Factory) : Prop where
  state : { g with journal := left.journal } = left
  calls : g.calls = f.calls
  reported : g.journal.head? = some (.notice failure)

structure FailsOnly (f : Factory) (failure : FactoryError → Notice)
    (causes : FactoryError → Factory → Prop) (e : Entity) (result : Entity × Factory) : Prop where
  exactly : result.1 = .invalid ↔ ∃ error left, causes error left
  otherwise : (∀ error left, ¬ causes error left) → result.1 = e
  failed : ∀ error left, causes error left → FailedAs f (failure error) left result.2

theorem FailedAs.noted {f left : Factory} (calls : left.calls = f.calls) (ns : List Notice)
    (failure : Notice) : FailedAs f failure left ((left.noteAll ns).note failure) := by
  obtain ⟨journal, same⟩ := noteAllJournal left ns
  refine ⟨?_, by simp [calls], rfl⟩
  rw [same]
  rfl

theorem FailsOnly.ofCases {f : Factory} {failure : FactoryError → Notice}
    {causes : FactoryError → Factory → Prop} {e : Entity} {result : Entity × Factory}
    (stops : ∀ error left, causes error left → left.calls = f.calls ∧
      ∃ ns, result = (.invalid, (left.noteAll ns).note (failure error)))
    (goes : (∀ error left, ¬ causes error left) → e ≠ .invalid ∧ result.1 = e) :
    FailsOnly f failure causes e result := by
  refine ⟨⟨fun failed => ?_, ?_⟩, fun free => (goes free).2, fun error left cause => ?_⟩
  · by_contra free
    obtain ⟨valid, same⟩ := goes fun error left cause => free ⟨error, left, cause⟩
    exact valid (same.symm.trans failed)
  · rintro ⟨error, left, cause⟩
    obtain ⟨-, ns, rfl⟩ := stops error left cause
    rfl
  · obtain ⟨calls, ns, rfl⟩ := stops error left cause
    exact .noted calls ns _

/-! By name. -/

theorem assetFound {f : Factory} {name : String} {bytes : Bytes} {cache : Cache}
    (found : f.cache.Finds (f.config.filename name) bytes cache) :
    ∃ ns, f.blueprintAsset name = (.ok bytes, { f with cache := cache }.noteAll ns) := by
  cases found with
  | held found => exact ⟨[], blueprintAssetCached found⟩
  | read absent loads =>
    refine ⟨[.assetLoaded (f.config.filename name) bytes.length], ?_⟩
    have fresh : f.cache.assets.contains (f.config.filename name) = false := by
      rw [Dict.contains, ← Cache.lookup, absent]; rfl
    have kept : f.cache.assets.get? (f.config.filename name) = none := absent
    simp [blueprintAsset, Cache.getOrLoad, loads, Cache.keepFirst, Cache.lookup, kept,
      Dict.insertNew, fresh, noteAll]

theorem populateUndecoded {f : Factory} {schema : Schema} {data : Bytes} {error : SchemaError}
    (loads : f.loader = some schema) (fails : schema.load f.types data = .error error)
    (e : Entity) (name : String) :
    f.populateFromData e name data = (.error (.codec error), f) := by
  simp only [populateFromData, loads, fails]

theorem noteAllLoads {f : Factory} {schema : Schema} {data : Bytes}
    {result : Except SchemaError (Tree × List Schema.Warning)} (loads : f.loader = some schema)
    (read : schema.load f.types data = result) (ns : List Notice) :
    (f.noteAll ns).loader = some schema ∧ schema.load (f.noteAll ns).types data = result := by
  obtain ⟨journal, same⟩ := noteAllJournal f ns
  rw [same]
  exact ⟨loads, read⟩

theorem tryFound {f : Factory} {e : Entity} {name : String} {schema : Schema} {bytes : Bytes}
    {cache : Cache} (valid : e ≠ .invalid) (loads : f.loader = some schema)
    (found : f.cache.Finds (f.config.filename name) bytes cache) :
    ∃ ns, f.tryPopulateNamed e name =
      ({ f with cache := cache }.noteAll ns).populateFromData e name bytes := by
  obtain ⟨ns, asset⟩ := assetFound found
  refine ⟨ns, ?_⟩
  simp [tryPopulateNamed, Entity.isValid, valid, loads, asset]

theorem hinderedFails {f left : Factory} {e : Entity} {name : String} {error : FactoryError}
    (hindered : Hindered f e name error left) :
    ∃ ns, f.tryPopulateNamed e name = (.error error, left.noteAll ns) := by
  cases hindered with
  | invalid none =>
    refine ⟨[], ?_⟩
    simp [tryPopulateNamed, Entity.isValid, none, noteAll]
  | withoutLoader valid none =>
    refine ⟨[], ?_⟩
    simp [tryPopulateNamed, Entity.isValid, valid, none, noteAll]
  | unreadable valid loads absent fails =>
    refine ⟨[], ?_⟩
    simp [tryPopulateNamed, Entity.isValid, valid, loads, blueprintAsset, Cache.getOrLoad, absent,
      fails, Cache.Answer.result, noteAll]
  | @undecodable schema bytes cache error valid loads found fails =>
    obtain ⟨ns, reached⟩ := tryFound valid loads found
    obtain ⟨loads, fails⟩ := noteAllLoads (f := { f with cache := cache }) loads fails ns
    exact ⟨ns, reached.trans (populateUndecoded loads fails e name)⟩

theorem tryUnhindered {f : Factory} {e : Entity} {name : String}
    (free : ∀ error left, ¬ Hindered f e name error left) :
    e ≠ .invalid ∧ ∃ g, f.tryPopulateNamed e name = (.ok (), g) := by
  have valid : e ≠ .invalid := fun none => free _ _ (.invalid none)
  refine ⟨valid, ?_⟩
  cases loads : f.loader with
  | none => exact absurd (.withoutLoader valid loads) (free _ _)
  | some schema =>
    rcases f.cache.findsOrFails (f.config.filename name) with ⟨bytes, cache, found⟩ | missing
    · cases read : schema.load f.types bytes with
      | error error => exact absurd (.undecodable valid loads found read) (free _ _)
      | ok loaded =>
        obtain ⟨ns, reached⟩ := tryFound valid loads found
        obtain ⟨loads, read⟩ := noteAllLoads (f := { f with cache := cache }) loads read ns
        rw [reached]
        simp only [populateFromData, loads, read]
        exact ⟨_, rfl⟩
    · obtain ⟨absent, error, fails⟩ := missing
      exact absurd (.unreadable valid loads absent fails) (free _ _)

theorem populateNamedFails (f : Factory) (e : Entity) (name : String) :
    FailsOnly f (.creationFailed e name) (Hindered f e name) e (f.populateNamed e name) := by
  refine .ofCases (fun error left hindered => ?_) fun free => ?_
  · obtain ⟨ns, failed⟩ := hinderedFails hindered
    refine ⟨?_, ns, by simp only [populateNamed, failed]⟩
    cases hindered <;> rfl
  · obtain ⟨valid, g, done⟩ := tryUnhindered free
    exact ⟨valid, by simp only [populateNamed, done]⟩

theorem createNamedFails (f : Factory) (name : String) :
    FailsOnly f (.creationFailed f.create.1 name) (Hindered f.create.2 f.create.1 name) f.create.1
      (f.createNamed name) := by
  obtain ⟨exactly, otherwise, failed⟩ := populateNamedFails f.create.2 f.create.1 name
  refine ⟨exactly, otherwise, fun error left hindered => ?_⟩
  obtain ⟨state, calls, reported⟩ := failed error left hindered
  exact ⟨state, calls, reported⟩

/-! From bytes. -/

theorem rejectedFails {f left : Factory} {data : Bytes} {error : FactoryError}
    (rejected : Rejected f data error left) (name : String) :
    f.tryCreateFromData data name = (.error error, left) := by
  cases rejected with
  | withoutLoader none => simp [tryCreateFromData, none]
  | undecodable loads fails =>
    have present : f.loader.isNone = false := by rw [loads]; rfl
    have stopped := populateUndecoded (f := f.create.2) loads fails f.create.1 name
    simp only [tryCreateFromData, present, stopped]
    rfl

theorem tryUnrejected {f : Factory} {data : Bytes}
    (free : ∀ error left, ¬ Rejected f data error left) (name : String) :
    ∃ g, f.tryCreateFromData data name = (.ok f.create.1, g) := by
  cases loads : f.loader with
  | none => exact absurd (.withoutLoader loads) (free _ _)
  | some schema =>
    cases read : schema.load f.types data with
    | error error => exact absurd (.undecodable loads read) (free _ _)
    | ok loaded =>
      simp only [tryCreateFromData, populateFromData, create, loads, read]
      exact ⟨_, rfl⟩

theorem tryCreateFails (f : Factory) (data : Bytes) (name : String) (error : FactoryError)
    (left : Factory) :
    f.tryCreateFromData data name = (.error error, left) ↔ Rejected f data error left := by
  refine ⟨fun failed => ?_, fun rejected => rejectedFails rejected name⟩
  by_cases free : ∀ error left, ¬ Rejected f data error left
  · obtain ⟨g, done⟩ := tryUnrejected free name
    cases done.symm.trans failed
  · push Not at free
    obtain ⟨cause, rest, rejected⟩ := free
    cases (rejectedFails rejected name).symm.trans failed
    exact rejected

theorem createRejected {f left : Factory} {data : Bytes} {error : FactoryError}
    (rejected : Rejected f data error left) (name : String) :
    f.createFromData data name = (.invalid, left.note (.creationFailed .invalid name error)) := by
  simp only [createFromData, rejectedFails rejected name]

theorem createFromDataFails (f : Factory) (ready : f.counter.next ≠ 0) (data : Bytes)
    (name : String) :
    FailsOnly f (.creationFailed .invalid name) (Rejected f data) f.create.1
      (f.createFromData data name) := by
  refine .ofCases (fun error left rejected => ?_) fun free => ?_
  · refine ⟨?_, [], createRejected rejected name⟩
    cases rejected <;> rfl
  · obtain ⟨g, done⟩ := tryUnrejected free name
    exact ⟨of_decide_eq_true (validOfNext ready), by simp only [createFromData, done]⟩

theorem failedCreationsAtomic (f : Factory) (ready : f.counter.next ≠ 0) (e : Entity)
    (name : String) (data : Bytes) :
    FailsOnly f (.creationFailed e name) (Hindered f e name) e (f.populateNamed e name) ∧
      FailsOnly f (.creationFailed f.create.1 name) (Hindered f.create.2 f.create.1 name)
        f.create.1 (f.createNamed name) ∧
      (∀ error left,
        f.tryCreateFromData data name = (.error error, left) ↔ Rejected f data error left) ∧
      FailsOnly f (.creationFailed .invalid name) (Rejected f data) f.create.1
        (f.createFromData data name) :=
  ⟨populateNamedFails f e name, createNamedFails f name, tryCreateFails f data name,
    createFromDataFails f ready data name⟩

theorem spoiledCartAtomic :
    let files : Dict String Bytes := ⟨[("cart.bin", [0xc1])]⟩
    let f : Factory := {
      systems := ⟨[⟨.names, ⟨[(⟨1⟩, "first")]⟩⟩, ⟨.hierarchy, {}⟩]⟩
      attached := [.names, .hierarchy]
      positions := ⟨[(.names, 0), (.hierarchy, 1)]⟩
      types := { tags := [⟨7⟩] }
      loader := some .standard
      cache := { source := .memory files 0 }
      blueprintNames := ⟨[(⟨1⟩, "cart")]⟩
      counter := ⟨1⟩
      queue := [⟨1⟩] }
    let error : FactoryError := .codec (.decode (.marker .reserved))
    f.counter.next ≠ 0 ∧ (f.createNamed "cart").1 = .invalid ∧
      FailedAs f (.creationFailed ⟨2⟩ "cart" error)
        { f with counter := ⟨2⟩, cache := ⟨.memory files 1, files⟩ } (f.createNamed "cart").2 ∧
      f.tryCreateFromData [0xc1] "cart" = (.error error, { f with counter := ⟨2⟩ }) := by
  intro files f error
  have ready : f.counter.next ≠ 0 := by decide
  obtain ⟨-, created, tried, -⟩ := failedCreationsAtomic f ready ⟨1⟩ "cart" [0xc1]
  have hindered : Hindered f.create.2 f.create.1 "cart" error
      { f with counter := ⟨2⟩, cache := ⟨.memory files 1, files⟩ } :=
    .undecodable (by decide) rfl (.read rfl rfl) rfl
  have rejected : Rejected f [0xc1] error { f with counter := ⟨2⟩ } := .undecodable rfl rfl
  exact ⟨ready, created.exactly.mpr ⟨error, _, hindered⟩, created.failed error _ hindered,
    (tried error _).mpr rejected⟩

/-! Trees that cannot be loaded again. -/

theorem deepTreeNotCreated (types : TypeIndex) (t : Tree) (deep : 512 ≤ t.height)
    (listed : t.Listed types.tags) (sized : t.Sized) :
    ∃ bytes, Schema.standard.finalizeTree types t = (.ok bytes, []) ∧
      (∀ known, Schema.standard.load known bytes = .error (.decode .depthLimit)) ∧
      ∀ (f : Factory) (name : String), f.loader = some .standard →
        (f.createFromData bytes name).1 = .invalid ∧
          (f.createFromData bytes name).2.calls = f.calls ∧
          (f.createFromData bytes name).2.blueprintNames = f.blueprintNames := by
  obtain ⟨u, stored⟩ := t.stored listed sized (Nat.le_refl _)
  have refused := Schema.loadTooDeep stored deep
  refine ⟨_, Schema.finalizeStored stored, refused, fun f name loads => ?_⟩
  rw [createRejected (.undecodable loads (refused f.types)) name]
  exact ⟨rfl, callsNote _ _, rfl⟩

theorem middleBranchNotCreated :
    let types : TypeIndex := { tags := [⟨7⟩] }
    let grow (t : Tree) : Tree := .node [⟨⟨7⟩, .owned [1]⟩] [.leaf [], t, .leaf []]
    let t : Tree := Nat.repeat grow 511 (.leaf [])
    let f : Factory := { loader := some .standard, cache := { source := .memory {} 0 } }
    512 ≤ t.height ∧ t.Listed types.tags ∧ t.Sized ∧
      ∃ bytes, Schema.standard.finalizeTree types t = (.ok bytes, []) ∧
        Schema.standard.load types bytes = .error (.decode .depthLimit) ∧
        (f.createFromData bytes "deep").1 = .invalid := by
  intro types grow t f
  have grown (n : Nat) : n < (Nat.repeat grow n (.leaf [])).height ∧
      (Nat.repeat grow n (.leaf [])).Listed types.tags ∧ (Nat.repeat grow n (.leaf [])).Sized := by
    induction n with
    | zero => exact ⟨by decide, .ofLeaf (by decide), .ofLeaf (by decide)⟩
    | succ n ih =>
      change n + 1 < (grow (Nat.repeat grow n (.leaf []))).height ∧
        (grow (Nat.repeat grow n (.leaf []))).Listed types.tags ∧
        (grow (Nat.repeat grow n (.leaf []))).Sized
      generalize Nat.repeat grow n (.leaf []) = branch at ih ⊢
      obtain ⟨high, listed, sized⟩ := ih
      have height : (grow branch).height = 1 + max 1 (max branch.height (max 1 0)) := rfl
      have each {p} (leaf : Tree.Each p (.leaf [])) (inside : branch.Each p) :
          ∀ t ∈ [.leaf [], branch, .leaf []], t.Each p := by
        simp [leaf, inside]
      have few : [Tree.leaf [], branch, .leaf []].length < UInt32.size := by
        change 3 < UInt32.size
        decide
      exact ⟨by omega, .node (by decide) (each (.ofLeaf (by decide)) listed),
        .node ⟨by decide, few, by decide⟩ (each (.ofLeaf (by decide)) sized)⟩
  obtain ⟨deep, listed, sized⟩ := grown 511
  obtain ⟨bytes, finalized, refused, stopped⟩ := deepTreeNotCreated types t deep listed sized
  exact ⟨deep, listed, sized, bytes, finalized, refused types, (stopped f "deep" rfl).1⟩

end Factory
end EntityFoundry
