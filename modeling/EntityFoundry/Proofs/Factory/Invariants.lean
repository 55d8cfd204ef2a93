import EntityFoundry.Proofs.Factory.Runs
import EntityFoundry.Proofs.Systems.Links
/-! What holds after every run. Each attached system is held and has its place; and as long as the
entities have not come round, the links agree and name no child that was not issued. -/
namespace EntityFoundry.Factory

structure Seated (f : Factory) : Prop where
  seats : ∀ s i, f.positions.get? s = some i ↔ f.attached[i]? = some s
  held : ∀ s ∈ f.attached, f.systems.contains s = true

theorem seatAppended {α : Type} (xs : List α) (x y : α) (i : Nat) :
    (xs ++ [x])[i]? = some y ↔ xs[i]? = some y ∨ i = xs.length ∧ x = y := by
  rw [List.getElem?_append]
  split
  next inside =>
    have other : i ≠ xs.length := Nat.ne_of_lt inside
    simp [other]
  next outside =>
    have past : xs[i]? = none := List.getElem?_eq_none (Nat.le_of_not_lt outside)
    simp [past, List.getElem?_singleton]
    omega

namespace Seated
variable {f g : Factory} (seated : f.Seated)
include seated

theorem unique : f.attached.Nodup := by
  refine List.pairwise_iff_getElem.mpr fun i j small large before same => ?_
  have left := (seated.seats f.attached[i] i).mpr (List.getElem?_eq_getElem small)
  have right := (seated.seats f.attached[i] j).mpr (same ▸ List.getElem?_eq_getElem large)
  rw [left] at right
  exact Nat.ne_of_lt before (Option.some.inj right)

theorem keep (attached : g.attached = f.attached) (positions : g.positions = f.positions)
    (kept : ∀ s, f.systems.contains s = true → g.systems.contains s = true) : g.Seated := by
  refine ⟨fun s i => ?_, fun s member => ?_⟩
  · rw [positions, attached]
    exact seated.seats s i
  · rw [attached] at member
    exact kept s (seated.held s member)

theorem place {s : SystemId} (held : f.systems.contains s = true) : (f.place s).Seated := by
  unfold Factory.place
  split
  · exact seated
  next new =>
    have free : f.positions.get? s = none := by simpa [Dict.contains] using new
    refine ⟨fun t i => ?_, fun t member => ?_⟩
    · simp only [Dict.getInsert]
      rw [seatAppended]
      by_cases same : t = s
      · subst same
        have absent : f.attached[i]? ≠ some t := fun found => by
          rw [(seated.seats t i).mpr found] at free
          cases free
        simp [absent, eq_comm]
      · have other : s ≠ t := fun h => same h.symm
        simp [same, other, seated.seats]
    · rcases List.mem_append.mp member with before | last
      · exact seated.held t before
      · exact List.mem_singleton.mp last ▸ held

end Seated

theorem Moves.seated {f g : Factory} (moves : Moves f g) (seated : f.Seated) : g.Seated := by
  induction moves with
  | trans first second ihf ihs => exact ihs (ihf seated)
  | tell f c => exact seated.keep rfl rfl fun s => (Moves.tell f c).contains
  | placed held => exact seated.place held
  | @child f g parent inside ih =>
    have within := ih (seated.keep rfl rfl fun _ held => held)
    unfold Factory.attachChild
    split
    · refine within.keep rfl rfl fun s held => ?_
      exact (Systems.containsAttach g.systems parent _ s).trans held
    · exact within
  | registered created => exact seated.keep rfl rfl fun s => (Moves.registered created).contains
  | damaged hurt => exact seated.keep rfl rfl fun s => (Moves.damaged hurt).contains
  | refl | note | called | issue | named | queued | routed | adjusted =>
    exact ⟨seated.seats, seated.held⟩

/-! Links. A state alone does not say that a child is new when it gets its parent; what has happened
since the child was created does. -/

def links (f : Factory) : Links := (f.systems.get? .hierarchy).getD {}

theorem parentOfLinks (f : Factory) (e : Entity) : f.systems.parentOf e = f.links.parentOf e := by
  unfold Systems.parentOf links
  cases f.systems.get? .hierarchy <;> rfl

theorem childrenOfLinks (f : Factory) (e : Entity) :
    f.systems.childrenOf e = f.links.childrenOf e := by
  unfold Systems.childrenOf links
  cases f.systems.get? .hierarchy <;> rfl

structure Linked (f : Factory) : Prop where
  paired : f.links.Paired
  issued : ∀ c p, f.links.parentOf c = some p → c.id.toNat ≤ f.counter.issued

structure LinkedSince (f g : Factory) : Prop extends Linked g where
  fresh : ∀ c p, g.links.parentOf c = some p →
    f.links.parentOf c = some p ∨ f.counter.issued < c.id.toNat

namespace Linked
variable {f g : Factory} (linked : f.Linked)
include linked

theorem same (links : g.links = f.links) (issued : f.counter.issued ≤ g.counter.issued) :
    LinkedSince f g := by
  refine ⟨⟨links ▸ linked.paired, fun c p found => ?_⟩, fun c p found => .inl (links ▸ found)⟩
  rw [links] at found
  exact Nat.le_trans (linked.issued c p found) issued

theorem detached {e : Entity} (links : g.links = f.links.detach e)
    (counter : g.counter = f.counter) : LinkedSince f g := by
  have before (c p : Entity) (found : g.links.parentOf c = some p) :
      f.links.parentOf c = some p := by
    rw [links, linked.paired.parentOfDetach] at found
    split at found
    · cases found
    · exact (Option.filter_eq_some_iff.mp found).1
  refine ⟨⟨?_, fun c p found => ?_⟩, fun c p found => .inl (before c p found)⟩
  · rw [links]
    exact linked.paired.detach e
  · rw [counter]
    exact linked.issued c p (before c p found)

end Linked

theorem linksTell (f : Factory) (c : Call) :
    (f.tell c).links = f.links ∨ ∃ e, (f.tell c).links = f.links.detach e := by
  unfold links tell
  rw [Systems.getTold]
  split
  · cases f.systems.get? .hierarchy with
    | none => exact .inl rfl
    | some l =>
      cases c with
      | destroy s e => exact .inr ⟨e, rfl⟩
      | create s e r =>
        refine .inl ?_
        simp [SystemId.told, SystemId.hear, SystemId.store]
      | start | afterCreate | createChild => exact .inl rfl
  · exact .inl rfl

theorem linksAttach (f : Factory) (parent child : Entity) :
    (f.attachChild parent child).links = f.links ∨
      (f.attachChild parent child).links = f.links.attach parent child := by
  unfold attachChild
  split
  · unfold links note Systems.attach
    rw [Registry.getUpdateSelf]
    cases f.systems.get? .hierarchy with
    | none => exact .inl rfl
    | some l => exact .inr rfl
  · exact .inl rfl

theorem linksRegistered {f : Factory} {s : SystemId} {p : Probe} {systems : Systems}
    (created : f.systems.create? s (s.fresh p) = some systems) :
    { f with systems := systems }.links = f.links := by
  unfold links
  simp only [Registry.getCreated created]
  cases f.systems.get? .hierarchy with
  | some l => rfl
  | none =>
    by_cases same : s = .hierarchy
    · subst same
      rfl
    · simp [Registry.find, same]

theorem createNumber {f : Factory} (small : f.counter.issued + 1 < UInt64.size) :
    f.create.1.id.toNat = f.counter.issued + 1 := UInt64.toNat_ofNat_of_lt' small

theorem Linked.child {f g : Factory} (linked : f.Linked) (inside : LinkedSince f.create.2 g)
    (issued : f.create.2.counter.issued ≤ g.counter.issued) (small : g.counter.issued < UInt64.size)
    (parent : Entity) : LinkedSince f (g.attachChild parent f.create.1) := by
  have counter := Moves.attachCounter g parent f.create.1
  have number : f.create.1.id.toNat = f.counter.issued + 1 :=
    createNumber (Nat.lt_of_le_of_lt issued small)
  have since (c p : Entity) (found : g.links.parentOf c = some p) :
      f.links.parentOf c = some p ∨ f.counter.issued < c.id.toNat :=
    (inside.fresh c p found).imp_right Nat.lt_of_succ_lt
  -- Nothing gave the child a parent while what is below it was made: its number was taken before.
  have unlinked : g.links.parentOf f.create.1 = none := by
    cases found : g.links.parentOf f.create.1 with
    | none => rfl
    | some p =>
      rcases inside.fresh _ p found with before | new
      · have old := linked.issued _ p before
        omega
      · have later : f.counter.issued + 1 < f.create.1.id.toNat := new
        omega
  rcases linksAttach g parent f.create.1 with links | links
  · refine ⟨⟨links ▸ inside.paired, ?_⟩, ?_⟩ <;> rw [links]
    · exact counter ▸ inside.issued
    · exact since
  · refine ⟨⟨?_, fun c p found => ?_⟩, fun c p found => ?_⟩
    · rw [links]
      exact inside.paired.attach unlinked parent
    · rw [counter]
      rw [links, Links.parentOfAttach] at found
      by_cases same : c = f.create.1
      · rw [same, number]
        exact issued
      · exact inside.issued c p (by simpa [same] using found)
    · rw [links, Links.parentOfAttach] at found
      by_cases same : c = f.create.1
      · rw [same, number]
        exact .inr (Nat.lt_succ_self _)
      · exact since c p (by simpa [same] using found)

theorem Moves.linkedSince {f g : Factory} (moves : Moves f g)
    (small : g.counter.issued < UInt64.size) (linked : f.Linked) : LinkedSince f g := by
  induction moves with
  | @trans f g h first second ihf ihs =>
    have between := ihf (Nat.lt_of_le_of_lt second.issued small) linked
    have after := ihs small between.toLinked
    refine ⟨after.toLinked, fun c p found => ?_⟩
    rcases after.fresh c p found with before | new
    · exact between.fresh c p before
    · exact .inr (Nat.lt_of_le_of_lt first.issued new)
  | tell f c =>
    rcases linksTell f c with links | ⟨e, links⟩
    · exact linked.same links (Nat.le_refl _)
    · exact linked.detached links rfl
  | @child f g parent inside ih =>
    rw [Moves.attachCounter] at small
    have started := linked.same (g := f.create.2) rfl (Nat.le_succ _)
    exact linked.child (ih small started.toLinked) inside.issued small parent
  | registered created => exact linked.same (linksRegistered created) (Nat.le_refl _)
  | @damaged f e amount left systems hurt =>
    obtain ⟨h, rfl⟩ := Systems.damageSet hurt
    have kept := Registry.getSetOther f.systems (j := .hierarchy) (by decide) h
    exact linked.same (congrArg (fun l : Option Links => l.getD {}) kept) (Nat.le_refl _)
  | @placed f s held =>
    unfold place
    split <;> exact linked.same rfl (Nat.le_refl _)
  | issue f n => exact linked.same rfl (Nat.le_add_right _ n)
  | refl | note | called | named | queued | routed | adjusted =>
    exact linked.same rfl (Nat.le_refl _)

theorem seatedRun (config : Config) (source : AssetSource) (ops : List Op) :
    ((initial config source).run ops).Seated := by
  refine (Moves.run _ ops).seated ⟨fun s i => ?_, fun s member => ?_⟩
  · exact ⟨fun found => (nomatch found), fun found => (nomatch found)⟩
  · cases member

theorem linkedRun (config : Config) (source : AssetSource) (ops : List Op)
    (small : ((initial config source).run ops).counter.issued < UInt64.size) :
    ((initial config source).run ops).Linked := by
  have start : (initial config source).Linked :=
    ⟨Links.pairedEmpty, fun c p found => (nomatch found)⟩
  exact ((Moves.run _ ops).linkedSince small start).toLinked

end EntityFoundry.Factory
