import EntityFoundry.Proofs.Factory.Calls
import EntityFoundry.Proofs.Systems.Taking
/-! What creating makes of a factory: some entities more, some calls and kin more, the systems as
the calls leave them, and the routing as it was. The calls for a node are its offers, each to the
attached system its type is routed to, and after them those that were taken once more. -/
namespace EntityFoundry.Factory

def taker? (f : Factory) (tag : Tag) : Option SystemId :=
  (f.systemFor tag).filter f.systems.contains

def offers (f : Factory) (b : Blueprint) : List Offer :=
  b.filterMap fun r => (f.taker? r.tag).map (·, r)

def nodeCalls (e : Entity) (offers : List Offer) (all : Systems) : List Call :=
  offers.map (fun o => .create o.1 e o.2) ++
    (Systems.taken e offers all).map fun o => .afterCreate o.1 e o.2

structure Grown (f g : Factory) (n : Nat) (cs : List Call) (kin : List (Entity × Entity)) :
    Prop where
  issued : g.counter.issued = f.counter.issued + n
  calls : g.calls = f.calls ++ cs
  kinship : g.kinship = f.kinship ++ kin
  systems : Systems.Like (cs.foldl Systems.told f.systems) g.systems
  routing : g.systemFor = f.systemFor
  hook : g.hook = f.hook
  rest : g = { f with systems := g.systems, counter := g.counter, journal := g.journal }

namespace Grown
variable {f g h : Factory}

theorem refl (f : Factory) : Grown f f 0 [] [] :=
  ⟨rfl, (List.append_nil _).symm, (List.append_nil _).symm, .refl _, rfl, rfl, rfl⟩

theorem trans {m n : Nat} {cs ds : List Call} {ks ls : List (Entity × Entity)}
    (first : Grown f g m cs ks) (second : Grown g h n ds ls) :
    Grown f h (m + n) (cs ++ ds) (ks ++ ls) where
  issued := by rw [second.issued, first.issued, Nat.add_assoc]
  calls := by rw [second.calls, first.calls, List.append_assoc]
  kinship := by rw [second.kinship, first.kinship, List.append_assoc]
  systems := by
    rw [List.foldl_append]
    exact (first.systems.toldAll ds).trans second.systems
  routing := second.routing.trans first.routing
  hook := second.hook.trans first.hook
  rest := second.rest.trans (congrArg
    (fun k => { k with systems := h.systems, counter := h.counter, journal := h.journal })
    first.rest)

theorem note (f : Factory) (n : Notice) : Grown f (f.note n) 0 [] n.kin?.toList :=
  ⟨rfl, by simp, kinshipNote f n, .refl _, rfl, rfl, rfl⟩

theorem noteAll (f : Factory) {ns : List Notice} (strangers : ∀ n ∈ ns, n.kin? = none) :
    Grown f (f.noteAll ns) 0 [] [] := by
  induction ns generalizing f with
  | nil => exact .refl f
  | cons n ns ih =>
    have first := note f n
    rw [strangers n (by simp)] at first
    exact first.trans (ih (f.note n) fun m member => strangers m (by simp [member]))

theorem tell (f : Factory) (c : Call) : Grown f (f.tell c) 0 [c] [] :=
  ⟨rfl, callsTell f c, by rw [kinshipTell, List.append_nil], .refl _, rfl, rfl, rfl⟩

theorem create (f : Factory) : Grown f f.create.2 1 [] [] :=
  ⟨rfl, (List.append_nil _).symm, (List.append_nil _).symm, .refl _, rfl, rfl, rfl⟩

theorem attachChild (f : Factory) (parent child : Entity) :
    Grown f (f.attachChild parent child) 0 [] [] := by
  unfold Factory.attachChild
  split
  · have attached : Grown f { f with systems := f.systems.attach parent child } 0 [] [] :=
      ⟨rfl, (List.append_nil _).symm, (List.append_nil _).symm, .attach _ parent child, rfl, rfl,
        rfl⟩
    exact attached.trans (note _ (.childAttached parent child))
  · exact .refl f

theorem offers {n : Nat} {cs : List Call} {kin : List (Entity × Entity)}
    (grown : Grown f g n cs kin) : g.offers = f.offers := by
  have held (s : SystemId) : g.systems.contains s = f.systems.contains s := by
    rw [← grown.systems.held, Systems.containsToldAll]
  unfold Factory.offers taker?
  rw [grown.routing, funext held]

end Grown

/-! An offer, all offers of a blueprint and the calls after them. -/

theorem takerFound {f : Factory} {tag : Tag} {s : SystemId} (found : f.taker? tag = some s) :
    f.systemFor tag = some s ∧ ∃ state, f.systems.get? s = some state := by
  obtain ⟨routed, held⟩ := Option.filter_eq_some_iff.mp found
  exact ⟨routed, Option.isSome_iff_exists.mp held⟩

theorem takerMissing {f : Factory} {tag : Tag} {s : SystemId} (missing : f.taker? tag = none)
    (routed : f.systemFor tag = some s) : f.systems.get? s = none := by
  have absent := Option.filter_eq_none_iff.mp missing s routed
  simpa [Registry.contains] using absent

theorem offersTaker {f : Factory} {b : Blueprint} {offer : Offer} (member : offer ∈ f.offers b) :
    f.taker? offer.2.tag = some offer.1 := by
  obtain ⟨r, -, found⟩ := List.mem_filterMap.mp member
  obtain ⟨s, taker, rfl⟩ := Option.map_eq_some_iff.mp found
  exact taker

theorem storeNoticesKin (e : Entity) (r : Record) (s : SystemId) :
    ∀ n ∈ Systems.storeNotices e r s, n.kin? = none := by
  intro n member
  unfold Systems.storeNotices at member
  split at member
  · split at member
    · obtain rfl := List.mem_singleton.mp member
      rfl
    · cases member
  · cases member

theorem afterNoticesKin (all : Systems) (e : Entity) (s : SystemId) :
    ∀ n ∈ all.afterNotices e s, n.kin? = none := by
  intro n member
  unfold Systems.afterNotices at member
  split at member
  · split at member
    · cases member
    · split at member
      · cases member
      · obtain rfl := List.mem_singleton.mp member
        rfl
  · cases member

theorem offerUnrouted {f : Factory} {r : Record} (missing : f.taker? r.tag = none) (e : Entity) :
    (f.offer e r).1 = none ∧ Grown f (f.offer e r).2 0 [] [] := by
  unfold offer
  cases routed : f.systemFor r.tag with
  | none => exact ⟨rfl, .note f _⟩
  | some s =>
    simp only [takerMissing missing routed]
    exact ⟨trivial, .refl f⟩

theorem offerMade {f : Factory} {r : Record} {s : SystemId} (found : f.taker? r.tag = some s)
    (e : Entity) :
    (f.offer e r).1 = (if f.systems.accepts e (s, r) then some s else none) ∧
      Grown f (f.offer e r).2 0 [.create s e r] [] := by
  obtain ⟨routed, state, held⟩ := takerFound found
  have told := Grown.tell f (.create s e r)
  unfold offer
  simp only [routed, held, Systems.accepts, SystemId.accepts]
  cases s.verdict state e r with
  | error error => exact ⟨rfl, told.trans (.note _ _)⟩
  | ok => exact ⟨rfl, told.trans (.noteAll _ (storeNoticesKin e r s))⟩

theorem offerAllTaken (f : Factory) (e : Entity) (before : List Offer) (b : Blueprint) :
    (offerAll e before b f).1 = before.reverse ++ Systems.taken e (f.offers b) f.systems ∧
      Grown f (offerAll e before b f).2 0 ((f.offers b).map fun o => .create o.1 e o.2) [] := by
  induction b generalizing f before with
  | nil => exact ⟨(List.append_nil _).symm, .refl f⟩
  | cons r b ih =>
    rw [offerAll]
    cases found : f.taker? r.tag with
    | none =>
      obtain ⟨answer, grown⟩ := offerUnrouted found e
      have offers : f.offers (r :: b) = f.offers b := by simp [Factory.offers, found]
      generalize f.offer e r = made at answer grown ⊢
      obtain ⟨_, g⟩ := made
      cases answer
      have later : Systems.taken e (f.offers b) g.systems =
          Systems.taken e (f.offers b) f.systems := (grown.systems.taken e _).symm
      obtain ⟨taken, rest⟩ := ih g before
      rw [grown.offers, later] at taken
      rw [grown.offers] at rest
      rw [offers]
      exact ⟨taken, grown.trans rest⟩
    | some s =>
      obtain ⟨answer, grown⟩ := offerMade found e
      have offers : f.offers (r :: b) = (s, r) :: f.offers b := by simp [Factory.offers, found]
      generalize f.offer e r = made at answer grown ⊢
      obtain ⟨kept, g⟩ := made
      obtain rfl : kept = if f.systems.accepts e (s, r) then some s else none := answer
      rw [offers, Systems.taken]
      have later : Systems.taken e (f.offers b) g.systems =
          Systems.taken e (f.offers b) (f.systems.told (.create s e r)) :=
        (grown.systems.taken e _).symm
      cases f.systems.accepts e (s, r) with
      | false =>
        obtain ⟨taken, rest⟩ := ih g before
        rw [grown.offers] at taken rest
        exact ⟨taken.trans (congrArg _ later), grown.trans rest⟩
      | true =>
        obtain ⟨taken, rest⟩ := ih g ((s, r) :: before)
        rw [grown.offers, later] at taken
        rw [grown.offers] at rest
        refine ⟨?_, grown.trans rest⟩
        simpa using taken

theorem afterCreateGrown (f : Factory) (e : Entity) (offer : Offer) :
    Grown f (f.afterCreate e offer) 0 [.afterCreate offer.1 e offer.2] [] := by
  have told := Grown.tell f (.afterCreate offer.1 e offer.2)
  exact told.trans (.noteAll _ (afterNoticesKin _ e offer.1))

theorem afterAllGrown (f : Factory) (e : Entity) (taken : List Offer) :
    Grown f (taken.foldl (afterCreate e) f) 0 (taken.map fun o => .afterCreate o.1 e o.2) [] := by
  induction taken generalizing f with
  | nil => exact .refl f
  | cons offer taken ih => exact (afterCreateGrown f e offer).trans (ih (afterCreate e f offer))

theorem dispatchGrown (f : Factory) (e : Entity) (b : Blueprint) :
    Grown f (f.dispatch e b) 0 (nodeCalls e (f.offers b) f.systems) [] := by
  obtain ⟨taken, grown⟩ := offerAllTaken f e [] b
  unfold dispatch
  generalize offerAll e [] b f = offered at taken grown ⊢
  obtain ⟨_, g⟩ := offered
  cases taken
  exact grown.trans (afterAllGrown g e _)

end EntityFoundry.Factory
