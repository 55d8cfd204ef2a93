import EntityFoundry.Factory.Assets
import EntityFoundry.Proofs.Factory.Views
import EntityFoundry.Proofs.Schema.RoundTrip
/-! Creation from an asset beside creation from the tree in memory. What is loaded is the view of
the tree that was finalized, so creating from it is creating the view, but for the blueprint name
the entity gets and the notice of that. Where no system looks at who owns a payload, it is creating
the tree itself. A system that does look can tell the two apart. -/
namespace EntityFoundry.Factory

def labelled (name : String) (made : Entity × Factory) : Entity × Factory :=
  let names := made.2.blueprintNames.insert made.1 name
  (made.1, { made.2 with blueprintNames := names }.note (.createdFromAsset made.1 name))

structure AlikeUpToViews (left right : Entity × Factory) : Prop where
  entity : left.1 = right.1
  state : left.2.viewed = right.2.viewed

theorem builtAlike {f : Factory} (blind : f.systems.Probes Probe.Blind) (t : Tree)
    (name : String) :
    AlikeUpToViews (labelled name (f.createWithTree t.viewed))
      (labelled name (f.createWithTree t)) := by
  have twins := ((Twins.ofBlind blind).create.twins).build f.create.1 t
  refine ⟨rfl, ?_⟩
  exact congrArg (fun g => (labelled name (f.create.1, g)).2) twins.same

theorem populateLoaded {f : Factory} {schema : Schema} {t : Tree} {data : Bytes}
    (loads : f.loader = some schema) (loaded : schema.load f.types data = .ok (t, []))
    (e : Entity) (name : String) :
    f.populateFromData e name data = (.ok (), (labelled name (e, build e t f)).2) := by
  simp only [populateFromData, loads, loaded, List.map_nil]
  rfl

theorem blueprintAssetCached {f : Factory} {name : String} {bytes : Bytes}
    (cached : f.cache.lookup (f.config.filename name) = some bytes) :
    f.blueprintAsset name = (.ok bytes, f) := by
  simp only [blueprintAsset, Cache.getOrLoad, cached]
  rfl

theorem validOfNext {f : Factory} (ready : f.counter.next ≠ 0) : f.create.1.isValid = true := by
  have different : (⟨f.counter.next⟩ : Entity) ≠ .invalid := by
    intro same
    exact ready (congrArg Entity.id same)
  exact decide_eq_true different

/-- Finalizing a tree and creating from the bytes, given or cached, does what creating its view
does and names the entity. Where no system looks at who owns a payload, that is what creating the
tree itself does. -/
theorem assetPathAgrees (f : Factory) (t : Tree) (name : String)
    (loads : f.loader = some .standard) (finalizes : f.finalizer = some .standard)
    (ready : f.counter.next ≠ 0) (levels : t.height ≤ 511) (listed : t.Listed f.types.tags)
    (sized : t.Sized) :
    ∃ bytes, f.finalizeTree t = (.ok bytes, f) ∧
      ∀ made, made = f.createFromData bytes name ∨
          f.cache.lookup (f.config.filename name) = some bytes ∧ made = f.createNamed name →
        made = labelled name (f.createWithTree t.viewed) ∧
          (f.systems.Probes Probe.Blind →
            AlikeUpToViews made (labelled name (f.createWithTree t))) := by
  obtain ⟨u, stored⟩ := t.stored listed sized levels
  have finalized := Schema.finalizeStored stored
  have loaded := Schema.loadStored stored
  have populated := populateLoaded (f := f.create.2) loads loaded f.create.1 name
  refine ⟨Schema.standard.encode u, by simp only [finalizeTree, finalizes, finalized]; rfl, ?_⟩
  intro made how
  have same : made = labelled name (f.createWithTree t.viewed) := by
    rcases how with given | ⟨cached, asked⟩
    · rw [given]
      simp only [createFromData, tryCreateFromData, loads, populated]
      rfl
    · have asset := blueprintAssetCached (f := f.create.2) cached
      have loader : f.create.2.loader.isNone = false := by simp [create, loads]
      rw [asked]
      simp only [createNamed, populateNamed, tryPopulateNamed, validOfNext ready, loader, asset,
        populated]
      rfl
  exact ⟨same, fun blind => same ▸ builtAlike blind t name⟩

theorem cachedCartAgrees :
    let bytes : Bytes := [130, 170, 99, 111, 109, 112, 111, 110, 101, 110, 116, 115, 145, 130, 168,
      100, 101, 102, 95, 116, 121, 112, 101, 1, 163, 100, 101, 102, 196, 1, 1, 168, 99, 104, 105,
      108, 100, 114, 101, 110, 145, 130, 170, 99, 111, 109, 112, 111, 110, 101, 110, 116, 115, 145,
      130, 168, 100, 101, 102, 95, 116, 121, 112, 101, 0, 163, 100, 101, 102, 196, 0, 168, 99, 104,
      105, 108, 100, 114, 101, 110, 144]
    let f : Factory := {
      systems := ⟨[⟨.hierarchy, {}⟩, ⟨.plain, ()⟩, ⟨.probe "log", { learn := fun m _ => 0 :: m }⟩]⟩
      attached := [.hierarchy, .plain, .probe "log"]
      positions := ⟨[(.hierarchy, 0), (.plain, 1), (.probe "log", 2)]⟩
      routes := ⟨[(⟨7⟩, .plain), (⟨9⟩, .probe "log")]⟩
      types := { tags := [⟨7⟩, ⟨9⟩] }
      loader := some .standard
      finalizer := some .standard
      cache := { source := .memory {} 0, assets := Dict.insert {} "cart.bin" bytes }
      hook := .attaching }
    let t : Tree := .node [⟨⟨9⟩, .owned [1]⟩] [.leaf [⟨⟨7⟩, .owned []⟩]]
    f.finalizeTree t = (.ok bytes, f) ∧
      ∀ made, made = f.createFromData bytes "cart" ∨ made = f.createNamed "cart" →
        made = labelled "cart" (f.createWithTree t.viewed) ∧
          AlikeUpToViews made (labelled "cart" (f.createWithTree t)) := by
  intro bytes f t
  have blind : f.systems.Probes Probe.Blind := by
    refine Systems.Probes.ofEntries fun label probe member => ?_
    simp only [f, List.mem_cons, List.not_mem_nil, or_false, reduceCtorEq, Sigma.mk.injEq,
      false_and, false_or] at member
    obtain ⟨same, alike⟩ := member
    cases same
    cases alike
    exact ⟨fun _ _ _ => rfl, fun _ _ => rfl⟩
  have listed : t.Listed f.types.tags :=
    .node (by decide) (List.forall_mem_singleton.mpr (.ofLeaf (by decide)))
  have sized : t.Sized :=
    .node (by decide) (List.forall_mem_singleton.mpr (.ofLeaf (by decide)))
  obtain ⟨data, finalized, alike⟩ :=
    assetPathAgrees f t "cart" rfl rfl (by decide) (by decide) listed sized
  have same : data = bytes := by
    have result := congrArg Prod.fst finalized
    exact (Except.ok.inj result).symm
  subst same
  refine ⟨finalized, fun made how => ?_⟩
  obtain ⟨viewed, owned⟩ := alike made (how.imp_right fun asked => ⟨rfl, asked⟩)
  exact ⟨viewed, owned blind⟩

theorem borrowedRefused :
    let bytes : Bytes := [130, 170, 99, 111, 109, 112, 111, 110, 101, 110, 116, 115, 145, 130, 168,
      100, 101, 102, 95, 116, 121, 112, 101, 0, 163, 100, 101, 102, 196, 1, 1, 168, 99, 104, 105,
      108, 100, 114, 101, 110, 144]
    let owner : SystemId := .probe "owner"
    let f : Factory := {
      systems := ⟨[⟨owner, {
        judge := fun _ _ r => if r.data.borrowed then .error (.rejected "owner") else .ok () }⟩]⟩
      attached := [owner]
      positions := ⟨[(owner, 0)]⟩
      routes := ⟨[(⟨7⟩, owner)]⟩
      types := { tags := [⟨7⟩] }
      loader := some .standard
      finalizer := some .standard
      cache := { source := .memory {} 0, assets := Dict.insert {} "crate.bin" bytes } }
    let t : Tree := .leaf [⟨⟨7⟩, .owned [1]⟩]
    let viewed : Record := ⟨⟨7⟩, .view [1]⟩
    f.counter.next ≠ 0 ∧ t.height ≤ 511 ∧ t.Listed f.types.tags ∧ t.Sized ∧
      f.cache.lookup (f.config.filename "crate") = some bytes ∧
      f.finalizeTree t = (.ok bytes, f) ∧
      (f.createFromData bytes "crate").2.calls = [.create owner ⟨1⟩ viewed] ∧
      (f.createNamed "crate").2.calls = [.create owner ⟨1⟩ viewed] ∧
      (f.createWithTree t).2.calls.map Call.viewed =
        [.create owner ⟨1⟩ viewed, .afterCreate owner ⟨1⟩ viewed] :=
  ⟨by decide, by decide, .ofLeaf (by decide), .ofLeaf (by decide), rfl, rfl, rfl, rfl, rfl⟩

end EntityFoundry.Factory
