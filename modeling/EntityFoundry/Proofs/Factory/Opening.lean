import EntityFoundry.Factory.Assets
import EntityFoundry.Proofs.Assets.Confinement
import EntityFoundry.Proofs.Blueprint
/-! What is opened for a name. Building from an asset does not look at the source of the assets, so
a factory in front of a directory depends on it through the one file that it reads. The path of that
file is inside the root of the directory unless the name climbs out of it or is absolute. -/
namespace EntityFoundry.Factory

def sourced (f : Factory) (source : AssetSource) : Factory :=
  { f with cache := { f.cache with source := source } }

section Sourced
variable (source : AssetSource) (f : Factory)

theorem noteAllSourced (ns : List Notice) :
    (f.sourced source).noteAll ns = (f.noteAll ns).sourced source := by
  induction ns generalizing f with
  | nil => rfl
  | cons n ns ih => exact ih (f.note n)

theorem offerSourced (e : Entity) (r : Record) :
    (f.sourced source).offer e r = (f.offer e r).map id (·.sourced source) := by
  have routed : (f.sourced source).systemFor r.tag = f.systemFor r.tag := rfl
  have systems : (f.sourced source).systems = f.systems := rfl
  unfold offer
  rw [routed, systems]
  cases f.systemFor r.tag with
  | none => rfl
  | some system =>
    cases held : f.systems.get? system with
    | none =>
      simp only [held]
      rfl
    | some state =>
      simp only [held]
      cases system.verdict state e r with
      | error error => rfl
      | ok => exact Prod.ext rfl (noteAllSourced source (f.tell (.create system e r)) _)

theorem offerAllSourced (e : Entity) (taken : List (SystemId × Record)) (b : Blueprint) :
    offerAll e taken b (f.sourced source) =
      (offerAll e taken b f).map id (·.sourced source) := by
  induction b generalizing f taken with
  | nil => rfl
  | cons r b ih =>
    rw [offerAll, offerAll, offerSourced]
    obtain ⟨answer, g⟩ := f.offer e r
    cases answer with
    | none => exact ih g taken
    | some system => exact ih g ((system, r) :: taken)

theorem afterAllSourced (e : Entity) (taken : List (SystemId × Record)) :
    taken.foldl (afterCreate e) (f.sourced source) =
      (taken.foldl (afterCreate e) f).sourced source := by
  induction taken generalizing f with
  | nil => rfl
  | cons first taken ih =>
    have told : afterCreate e (f.sourced source) first = (afterCreate e f first).sourced source :=
      noteAllSourced source (f.tell (.afterCreate first.1 e first.2)) _
    rw [List.foldl_cons, List.foldl_cons, told]
    exact ih _

theorem dispatchSourced (e : Entity) (b : Blueprint) :
    (f.sourced source).dispatch e b = (f.dispatch e b).sourced source := by
  unfold dispatch
  rw [offerAllSourced]
  exact afterAllSourced source _ e _

theorem attachChildSourced (parent child : Entity) :
    (f.sourced source).attachChild parent child = (f.attachChild parent child).sourced source := by
  unfold attachChild
  split
  next => rfl
  next => rfl

theorem createChildSourced {fill : Entity → Factory → Factory}
    (filled : ∀ e g, fill e (sourced g source) = (fill e g).sourced source) (b : Blueprint)
    (parent : Entity) :
    (f.sourced source).createChild fill b parent =
      (f.createChild fill b parent).map id (·.sourced source) := by
  have hook : (f.sourced source).hook = f.hook := rfl
  unfold createChild
  rw [hook]
  cases f.hook with
  | parentless => exact Prod.ext rfl (filled f.create.1 f.create.2)
  | attaching =>
    have attached (child : Entity) (g : Factory) :
        (fill child (g.sourced source)).attachChild parent child =
          ((fill child g).attachChild parent child).sourced source := by
      rw [filled, attachChildSourced]
    exact Prod.ext rfl (attached f.create.1 f.create.2)
  | scripted style failing calls =>
    let g : Factory := { f with hook := .scripted style failing (calls + 1) }
    by_cases fails : calls ∈ failing
    · simp only [fails, if_true]
      rfl
    simp only [fails, if_false]
    cases style with
    | linking =>
      exact Prod.ext rfl (congrArg (called · _) (filled g.create.1 g.create.2))
    | populating =>
      have populated (child : Entity) (h : Factory) :
          (if child.isValid then (child, fill child (h.sourced source))
            else (.invalid, (h.sourced source).note .invalidPopulated)) =
          (if child.isValid then (child, fill child h)
            else (.invalid, h.note .invalidPopulated)).map id (sourced · source) := by
        split
        next => exact Prod.ext rfl (filled child h)
        next => rfl
      exact populated g.create.1 (g.create.2.called (.createChild .populating parent g.create.1))
    | shallow =>
      exact Prod.ext rfl (congrArg (called · _) (dispatchSourced source g.create.2 g.create.1 b))

theorem buildSourced (e : Entity) (t : Tree) :
    build e t (f.sourced source) = (build e t f).sourced source := by
  induction t using Tree.byNodes generalizing f e with
  | node b ts ih =>
    rw [build, build, dispatchSourced]
    generalize f.dispatch e b = g
    induction ts generalizing g with
    | nil => rfl
    | cons t ts later =>
      rw [buildChildren, buildChildren, createChildSourced source g fun e g => ih t (by simp) g e]
      generalize g.createChild (fun child f => build child t f) t.blueprint e = made
      obtain ⟨child, h⟩ := made
      exact later (fun u member => ih u (by simp [member])) (h.noteChild e child)

theorem populateFromDataSourced (e : Entity) (name : String) (data : Bytes) :
    (f.sourced source).populateFromData e name data =
      (f.populateFromData e name data).map id (·.sourced source) := by
  have loads : (f.sourced source).loader = f.loader := rfl
  have types : (f.sourced source).types = f.types := rfl
  unfold populateFromData
  rw [loads, types]
  cases f.loader with
  | none => rfl
  | some schema =>
    cases loaded : schema.load f.types data with
    | error error =>
      simp only [loaded]
      rfl
    | ok found =>
      simp only [loaded, noteAllSourced, buildSourced]
      rfl

section Asked
variable {source f} {name : String} (still : source.counted = source)
  (alike : f.cache.lookup (f.config.filename name) = none →
    source.load (f.config.filename name) = f.cache.source.load (f.config.filename name))
include still alike

theorem blueprintAssetSourced :
    (f.sourced source).blueprintAsset name =
      (f.blueprintAsset name).map id (·.sourced source) := by
  have looked : (f.sourced source).cache.lookup (f.config.filename name) =
    f.cache.lookup (f.config.filename name) := rfl
  have file : (f.sourced source).config.filename name = f.config.filename name := rfl
  unfold blueprintAsset Cache.getOrLoad
  simp only [file, looked]
  cases held : f.cache.lookup (f.config.filename name) with
  | some bytes => rfl
  | none =>
    have read : (f.sourced source).cache.source.load (f.config.filename name) =
      f.cache.source.load (f.config.filename name) := alike held
    have counted : (f.sourced source).cache.source.counted = source := still
    simp only [read, counted]
    cases f.cache.source.load (f.config.filename name) with
    | error error => rfl
    | ok bytes => rfl

theorem tryPopulateSourced (e : Entity) :
    (f.sourced source).tryPopulateNamed e name =
      (f.tryPopulateNamed e name).map id (·.sourced source) := by
  have loads : (f.sourced source).loader = f.loader := rfl
  unfold tryPopulateNamed
  rw [loads, blueprintAssetSourced still alike]
  split
  next => rfl
  next =>
    split
    next => rfl
    next =>
      obtain ⟨answer, g⟩ := f.blueprintAsset name
      cases answer with
      | error error => rfl
      | ok data => exact populateFromDataSourced source g e name data

theorem populateNamedSourced (e : Entity) :
    (f.sourced source).populateNamed e name =
      (f.populateNamed e name).map id (·.sourced source) := by
  unfold populateNamed
  rw [tryPopulateSourced still alike]
  obtain ⟨answer, g⟩ := f.tryPopulateNamed e name
  cases answer with
  | error error => rfl
  | ok => rfl

theorem createNamedSourced :
    (f.sourced source).createNamed name = (f.createNamed name).map id (·.sourced source) :=
  populateNamedSourced (f := f.create.2) still alike f.create.1

end Asked
end Sourced

theorem blueprintAssetRead {f : Factory} {root name : String} {disk : Disk}
    (source : f.cache.source = .directory root disk)
    (absent : f.cache.lookup (f.config.filename name) = none) :
    let path := Path.join root (f.config.filename name)
    (f.blueprintAsset name).1 = (disk.read path).mapError (⟨path, ·⟩) := by
  have fresh : f.cache.assets.get? (f.config.filename name) = none := absent
  simp only [blueprintAsset, Cache.getOrLoad, absent, source, AssetSource.load]
  cases disk.read (Path.join root (f.config.filename name)) with
  | error fault => rfl
  | ok bytes =>
    change Except.ok ((f.cache.assets.get? (f.config.filename name)).getD bytes) = _
    rw [fresh]
    rfl

/-- What is asked for by name is read from the path of its file, joined to the root, and it makes no
difference what else is on the disk; where the file is cached, nothing is read. That path is inside
the root just if the file name is relative and never climbs above its start, or else is an absolute
path inside the root. What a relative one reads then stands below the directory of the root. -/
theorem assetsReadInside (f : Factory) (disk : Disk) (name : String)
    (source : f.cache.source = .directory f.config.root disk) :
    let root := f.config.root
    let file := f.config.filename name
    let path := Path.join root file
    (f.cache.lookup file = none →
      (f.blueprintAsset name).1 = (disk.read path).mapError (⟨path, ·⟩)) ∧
    (∀ other : Disk, (f.cache.lookup file = none → other.read path = disk.read path) →
      let moved (g : Factory) := g.sourced (.directory root other)
      (moved f).blueprintAsset name = (f.blueprintAsset name).map id moved ∧
        (∀ e, (moved f).populateNamed e name = (f.populateNamed e name).map id moved) ∧
        (moved f).createNamed name = (f.createNamed name).map id moved) ∧
    (Path.Inside root path ↔
      if Path.isAbsolute file then Path.Inside root file
      else Path.below 0 (Path.steps file) = true) ∧
    (Path.isAbsolute file = false → Path.below 0 (Path.steps file) = true →
      ∀ bytes, disk.read path = .ok bytes →
        ∃ names inner, disk.reach root = .ok (.inside names) ∧ inner ≠ [] ∧
          disk.nodes.get? (inner ++ names) = some (some bytes)) := by
  intro root file path
  refine ⟨blueprintAssetRead source, fun other same => ?_, ?_,
    fun relative low bytes => Disk.readBelow relative low⟩
  · have alike : f.cache.lookup file = none →
        (AssetSource.directory root other).load file = f.cache.source.load file := by
      intro absent
      rw [source]
      simp only [AssetSource.load]
      exact congrArg _ (same absent)
    exact ⟨blueprintAssetSourced rfl alike, populateNamedSourced rfl alike,
      createNamedSourced rfl alike⟩
  · cases relative : Path.isAbsolute file with
    | false => exact Path.insideJoin relative
    | true =>
      have replaced : path = file := if_pos relative
      rw [replaced]
      rfl

def cartDisk : Disk where
  nodes := ⟨[(["assets"], none), (["carts", "assets"], none),
    (["cart.bin", "assets"], some [0x80]), (["secret.bin"], some [0x80])]⟩

def cartFactory : Factory where
  config := { root := "assets" }
  loader := some .standard
  cache := { source := .directory "assets" cartDisk }

theorem detourReadInside :
    cartFactory.cache.source = .directory cartFactory.config.root cartDisk ∧
      (cartFactory.blueprintAsset "carts/../cart").1 = .ok [0x80] ∧
      ((cartFactory.sourced (.directory "assets" (cartDisk.erase "secret.bin"))).createNamed
        "carts/../cart").1 = ⟨1⟩ ∧
      Path.Inside "assets" "assets/carts/../cart.bin" ∧
      ∃ names inner, cartDisk.reach "assets" = .ok (.inside names) ∧ inner ≠ [] ∧
        cartDisk.nodes.get? (inner ++ names) = some (some [0x80]) := by
  obtain ⟨read, alone, inside, stands⟩ := assetsReadInside cartFactory cartDisk "carts/../cart" rfl
  have found : cartDisk.read "assets/carts/../cart.bin" = .ok [0x80] := rfl
  have kept : (cartDisk.erase "secret.bin").read "assets/carts/../cart.bin" = .ok [0x80] := rfl
  have made : (cartFactory.createNamed "carts/../cart").1 = ⟨1⟩ := rfl
  have low : Path.below 0 (Path.steps "carts/../cart.bin") = true := by decide
  have same := (alone (cartDisk.erase "secret.bin") fun _ => kept.trans found.symm).2.2
  exact ⟨rfl, (read rfl).trans rfl, (congrArg Prod.fst same).trans made, inside.mpr low,
    stands (by decide) low _ found⟩

theorem climbingNameReadOutside :
    let path := Path.join cartFactory.config.root (cartFactory.config.filename "../secret")
    path = "assets/../secret.bin" ∧ ¬ Path.Inside cartFactory.config.root path ∧
      cartDisk.read path = .ok [0x80] ∧
      (cartFactory.blueprintAsset "../secret").1 = .ok [0x80] ∧
      (cartFactory.createNamed "../secret").1 = ⟨1⟩ := by
  have climbs : Path.below 0 (Path.steps (cartFactory.config.filename "../secret")) = false := by
    decide
  have outside : ¬ Path.Inside "assets"
      (Path.join "assets" (cartFactory.config.filename "../secret")) := by
    rw [Path.insideJoin (by decide), climbs]
    decide
  exact ⟨rfl, outside, rfl, rfl, rfl⟩

end EntityFoundry.Factory
