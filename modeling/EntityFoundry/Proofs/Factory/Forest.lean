import EntityFoundry.Proofs.Factory.Counting
import EntityFoundry.Proofs.Factory.Invariants
/-! The links as a forest. A child is issued after its parent, as long as nothing is put into an
entity that was not issued: every link goes to a larger number, so going up ends, at a root. -/
namespace EntityFoundry

inductive Above (parent : Entity → Option Entity) : Entity → Entity → Prop
  | parent {p c : Entity} (link : parent c = some p) : Above parent p c
  | further {q p c : Entity} (link : parent c = some p) (above : Above parent q p) :
      Above parent q c

structure Forest (parent : Entity → Option Entity) : Prop where
  acyclic : ∀ e, ¬ Above parent e e
  rooted : ∀ e, ∃ root, parent root = none ∧ (root = e ∨ Above parent root e)

def Rising (parent : Entity → Option Entity) : Prop := ∀ c p, parent c = some p → p.id < c.id

namespace Rising
variable {parent : Entity → Option Entity} (rising : Rising parent)
include rising

theorem above {p c : Entity} (above : Above parent p c) : p.id < c.id := by
  induction above with
  | parent link => exact rising _ _ link
  | further link _ ih => exact UInt64.lt_trans ih (rising _ _ link)

theorem rooted (n : Nat) {e : Entity} (below : e.id.toNat < n) :
    ∃ root, parent root = none ∧ (root = e ∨ Above parent root e) := by
  induction n generalizing e with
  | zero => cases below
  | succ n ih =>
    cases link : parent e with
    | none => exact ⟨e, link, .inl rfl⟩
    | some p =>
      have smaller : p.id.toNat < e.id.toNat := rising e p link
      obtain ⟨root, top, same | above⟩ := ih (e := p) (by omega)
      · exact ⟨root, top, .inr (same ▸ .parent link)⟩
      · exact ⟨root, top, .inr (.further link above)⟩

theorem forest : Forest parent :=
  ⟨fun e above => UInt64.lt_irrefl e.id (rising.above above),
    fun e => rising.rooted (e.id.toNat + 1) (Nat.lt_succ_self _)⟩

end Rising

namespace Factory

structure Climbs (f g : Factory) : Prop where
  moves : Moves f g
  rising : f.Linked → g.counter.issued < UInt64.size → Rising f.links.parentOf →
    Rising g.links.parentOf

namespace Climbs
variable {f g h : Factory}

theorem refl (f : Factory) : Climbs f f := ⟨.refl f, fun _ _ rising => rising⟩

theorem trans (first : Climbs f g) (second : Climbs g h) : Climbs f h := by
  refine ⟨first.moves.trans second.moves, fun linked small rising => ?_⟩
  have before := Nat.lt_of_le_of_lt second.moves.issued small
  have between := first.moves.linkedSince before linked
  exact second.rising between.toLinked small (first.rising linked before rising)

theorem still (moves : Moves f g) (counter : g.counter = f.counter) : Climbs f g := by
  refine ⟨moves, fun linked small rising c p found => ?_⟩
  have since := moves.linkedSince small linked
  rcases since.fresh c p found with before | new
  · exact rising c p before
  · have old := since.issued c p found
    rw [counter] at old
    omega

theorem arranged (arranges : Arranges (fun _ => True) f g) : Climbs f g :=
  still arranges.moves arranges.rest.1

theorem issue (f : Factory) (n : Nat) : Climbs f { f with counter := ⟨f.counter.issued + n⟩ } :=
  ⟨.issue f n, fun _ _ rising => rising⟩

theorem create (f : Factory) : Climbs f f.create.2 := issue f 1

theorem child {parent : Entity} (counted : parent.id.toNat ≤ f.counter.issued)
    (inside : Climbs f.create.2 g) : Climbs f (g.attachChild parent f.create.1) := by
  refine ⟨.child parent inside.moves, fun linked small rising => ?_⟩
  rw [Moves.attachCounter] at small
  have started := linked.same (g := f.create.2) rfl (Nat.le_succ _)
  have within := inside.rising started.toLinked small rising
  have number : f.create.1.id.toNat = f.counter.issued + 1 :=
    createNumber (Nat.lt_of_le_of_lt inside.moves.issued small)
  rcases linksAttach g parent f.create.1 with links | links
  · exact links ▸ within
  · intro c p found
    rw [links, Links.parentOfAttach] at found
    split at found
    next same =>
      cases found
      refine UInt64.lt_iff_toNat_lt.mpr ?_
      rw [same, number]
      exact Nat.lt_succ_of_le counted
    next => exact within c p found

/-! Creating. -/

theorem note (f : Factory) (n : Notice) : Climbs f (f.note n) := still (.note f n) rfl

theorem called (f : Factory) (c : Call) : Climbs f (f.called c) := still (.called f c) rfl

theorem dispatch (f : Factory) (e : Entity) (b : Blueprint) : Climbs f (f.dispatch e b) :=
  arranged (.dispatch f trivial b)

theorem rehook (f : Factory) (hook : Hook) : Climbs f { f with hook := hook } :=
  arranged (.rehook f hook)

theorem createWithBlueprint (f : Factory) (b : Blueprint) : Climbs f (f.createWithBlueprint b).2 :=
  (create f).trans (dispatch _ _ b)

theorem createChild {fill : Entity → Factory → Factory}
    (filled : ∀ e f, e.id.toNat ≤ f.counter.issued → Climbs f (fill e f)) (b : Blueprint)
    {parent : Entity} (counted : parent.id.toNat ≤ f.counter.issued) :
    Climbs f (f.createChild fill b parent).2 := by
  have made := f.childMade fill b parent
  generalize f.createChild fill b parent = answer at made ⊢
  cases made with
  | parentless => exact (create f).trans (filled _ _ (createCounted f))
  | attaching => exact child counted (filled _ _ (createCounted f))
  | failing hook => exact rehook f hook
  | linking hook c =>
    have full := filled _ _ (createCounted (f.rehooked hook))
    exact (rehook f hook).trans ((create _).trans (full.trans (called _ c)))
  | populating hook c =>
    have announced := (rehook f hook).trans ((create _).trans (called _ c))
    exact announced.trans (filled _ _ (createCounted (f.rehooked hook)))
  | refused hook c => exact (rehook f hook).trans ((create _).trans ((called _ c).trans (note _ _)))
  | shallow hook c => exact (rehook f hook).trans ((createWithBlueprint _ b).trans (called _ c))

theorem buildChildren {ts : List Tree}
    (built : ∀ t ∈ ts, ∀ e f, e.id.toNat ≤ f.counter.issued → Climbs f (Factory.build e t f))
    {parent : Entity} {f : Factory} (counted : parent.id.toNat ≤ f.counter.issued) :
    Climbs f (Factory.buildChildren parent ts f) := by
  induction ts generalizing f with
  | nil => exact .refl f
  | cons t ts ih =>
    have made := createChild (built t (by simp)) t.blueprint counted
    rw [Factory.buildChildren]
    generalize f.createChild (fun e f => Factory.build e t f) t.blueprint parent = left at made ⊢
    obtain ⟨child, g⟩ := left
    have later := Nat.le_trans counted made.moves.issued
    have rest := ih (fun u member => built u (by simp [member])) (f := g.noteChild parent child)
      later
    exact made.trans ((note g _).trans rest)

theorem build (t : Tree) {e : Entity} {f : Factory} (counted : e.id.toNat ≤ f.counter.issued) :
    Climbs f (Factory.build e t f) := by
  induction t using Tree.byNodes generalizing e f with
  | node b ts ih =>
    have here := dispatch f e b
    have later := Nat.le_trans counted here.moves.issued
    exact here.trans (buildChildren (fun t member _ _ => ih t member) later)

theorem createWithTree (f : Factory) (t : Tree) : Climbs f (f.createWithTree t).2 :=
  (create f).trans (build t (createCounted f))

theorem populateWithTree (t : Tree) {e : Entity} (counted : e.id.toNat ≤ f.counter.issued) :
    Climbs f (f.populateWithTree e t).2 := by
  unfold Factory.populateWithTree
  split
  · exact build t counted
  · exact note f _

/-! Assets. -/

theorem populateFromData {e : Entity} (counted : e.id.toNat ≤ f.counter.issued) (name : String)
    (data : Bytes) : Climbs f (f.populateFromData e name data).2 := by
  unfold Factory.populateFromData
  cases f.loader with
  | none => exact .refl f
  | some schema =>
    cases read : schema.load f.types data with
    | error error =>
      simp only [read]
      exact .refl f
    | ok loaded =>
      have warned := arranged (.noteAll f (loaded.2.map .schema))
      have built := build loaded.1 (Nat.le_trans counted warned.moves.issued)
      simp only [read]
      exact warned.trans (built.trans ((still (.named _ _) rfl).trans (note _ _)))

theorem tryPopulateNamed {e : Entity} (counted : e.id.toNat ≤ f.counter.issued) (name : String) :
    Climbs f (f.tryPopulateNamed e name).2 := by
  unfold Factory.tryPopulateNamed
  split
  · exact .refl f
  split
  · exact .refl f
  have read := arranged (.blueprintAsset f name)
  cases made : f.blueprintAsset name with
  | mk result g =>
    rw [made] at read
    cases result with
    | error error => exact read
    | ok data =>
      have since := Nat.le_trans counted read.moves.issued
      exact read.trans (populateFromData since name data)

theorem populateNamed {e : Entity} (counted : e.id.toNat ≤ f.counter.issued) (name : String) :
    Climbs f (f.populateNamed e name).2 := by
  have tried := tryPopulateNamed counted name
  unfold Factory.populateNamed
  cases made : f.tryPopulateNamed e name with
  | mk result g =>
    rw [made] at tried
    cases result with
    | error error => exact tried.trans (note _ _)
    | ok => exact tried

theorem createNamed (f : Factory) (name : String) : Climbs f (f.createNamed name).2 :=
  (create f).trans (populateNamed (createCounted f) name)

theorem tryCreateFromData (f : Factory) (data : Bytes) (name : String) :
    Climbs f (f.tryCreateFromData data name).2 := by
  unfold Factory.tryCreateFromData
  split
  · exact .refl f
  · exact (create f).trans (populateFromData (createCounted f) name data)

theorem createFromData (f : Factory) (data : Bytes) (name : String) :
    Climbs f (f.createFromData data name).2 := by
  have tried := tryCreateFromData f data name
  unfold Factory.createFromData
  cases made : f.tryCreateFromData data name with
  | mk result g =>
    rw [made] at tried
    cases result with
    | error error => exact tried.trans (note _ _)
    | ok => exact tried

end Climbs

/-! Runs. -/

def Op.IntoIssued (c : Counter) : Op → Prop
  | .populateNamed e _ => c.HasIssued e
  | .populateWithTree e _ => c.HasIssued e
  | _ => True

def IntoIssued (f : Factory) : List Op → Prop
  | [] => True
  | op :: ops => op.IntoIssued f.counter ∧ (f.apply op).IntoIssued ops

theorem Climbs.apply (f : Factory) {op : Op} (issued : op.IntoIssued f.counter) :
    Climbs f (f.apply op) := by
  have moves := Moves.apply f op
  cases op with
  | create => exact create f
  | issueMany n => exact issue f n
  | createNamed name => exact createNamed f name
  | createWithBlueprint b => exact createWithBlueprint f b
  | createWithTree t => exact createWithTree f t
  | populateNamed e name => exact populateNamed issued.2 name
  | populateWithTree e t => exact populateWithTree t issued.2
  | createFromData data name => exact createFromData f data name
  | tryCreateFromData data name => exact tryCreateFromData f data name
  | destroy e => exact still moves (counterDestroy f e)
  | destroyQueued => exact still moves (counterDestroyQueued f)
  | queueForDestruction | drainQueue => exact still moves rfl
  | _ => exact arranged (.apply f rfl)

theorem Climbs.run {f : Factory} {ops : List Op} (issued : f.IntoIssued ops) :
    Climbs f (f.run ops) := by
  induction ops generalizing f with
  | nil => exact .refl f
  | cons op ops ih => exact (apply f issued.1).trans (ih issued.2)

/-- After any run the parent of each child has it on its list, once, and no other does. Where only
issued entities were populated a child is always the later one, so the links are a forest. -/
theorem linksForest (config : Config) (source : AssetSource) (ops : List Op) :
    let f := (initial config source).run ops
    f.counter.issued < UInt64.size - 1 →
    (∀ c p, f.systems.parentOf c = some p ↔ c ∈ f.systems.childrenOf p) ∧
      (∀ p, (f.systems.childrenOf p).Nodup) ∧
      ((initial config source).IntoIssued ops →
        (∀ c p, f.systems.parentOf c = some p → p.id < c.id) ∧ Forest f.systems.parentOf) := by
  intro f few
  have small : f.counter.issued < UInt64.size := by omega
  have linked := linkedRun config source ops small
  refine ⟨fun c p => ?_, fun p => ?_, fun issued => ?_⟩
  · rw [parentOfLinks, childrenOfLinks]
    exact linked.paired.agree c p
  · rw [childrenOfLinks]
    exact linked.paired.unique p
  · have start : (initial config source).Linked :=
      ⟨Links.pairedEmpty, fun c p found => (nomatch found)⟩
    have rising : Rising f.links.parentOf :=
      (Climbs.run issued).rising start small fun c p found => (nomatch found)
    rw [funext (parentOfLinks f)]
    exact ⟨rising, rising.forest⟩

theorem refilledCartForest :
    let cart : Tree := .node [] [.node [] [.leaf []], .leaf []]
    let ops : List Op := [.createSystem .hierarchy {}, .setHook .attaching, .createWithTree cart,
      .destroy ⟨2⟩, .populateWithTree ⟨2⟩ (.node [] [.leaf []]), .setHook .parentless,
      .createWithTree cart]
    let f := (initial {} (.memory {} 0)).run ops
    f.counter.issued = 9 ∧ f.systems.parentOf ⟨4⟩ = some ⟨1⟩ ∧
      f.systems.parentOf ⟨5⟩ = some ⟨2⟩ ∧
      (∀ c p, f.systems.parentOf c = some p ↔ c ∈ f.systems.childrenOf p) ∧
      (∀ p, (f.systems.childrenOf p).Nodup) ∧
      (initial {} (.memory {} 0)).IntoIssued ops ∧
      (∀ c p, f.systems.parentOf c = some p → p.id < c.id) ∧ Forest f.systems.parentOf := by
  intro cart ops f
  have issued : f.counter.issued = 9 := by decide +kernel
  have second : Counter.HasIssued ⟨4⟩ ⟨2⟩ := ⟨by decide, by decide⟩
  have given : (initial {} (.memory {} 0)).IntoIssued ops :=
    ⟨trivial, trivial, trivial, trivial, second, trivial, trivial, trivial⟩
  obtain ⟨agree, unique, rising⟩ := linksForest {} (.memory {} 0) ops (by rw [issued]; decide)
  exact ⟨issued, by decide +kernel, by decide +kernel, agree, unique, given, rising given⟩

end Factory
end EntityFoundry
