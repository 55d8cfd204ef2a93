import EntityFoundry.Proofs.Factory.Counting
import EntityFoundry.Proofs.Factory.Invariants
import EntityFoundry.Proofs.Factory.PreOrder
import EntityFoundry.Proofs.Families
/-! What the links show of a tree once it is created and its children are attached: the kin of the
tree are attached one after another, those below a child before the child itself, and in the end
each entity has the children its node has, and no other entity has gained or lost any. -/
namespace EntityFoundry

namespace Links
open EntityFoundry.Tree (childrenAmong)

def attachAll (l : Links) (kin : List (Entity × Entity)) : Links :=
  kin.foldl (fun l x => l.attach x.1 x.2) l

theorem attachAllCons (l : Links) (x : Entity × Entity) (kin : List (Entity × Entity)) :
    l.attachAll (x :: kin) = (l.attach x.1 x.2).attachAll kin := rfl

theorem attachAllAppend (l : Links) (first second : List (Entity × Entity)) :
    l.attachAll (first ++ second) = (l.attachAll first).attachAll second := List.foldl_append

theorem childrenOfAttachAll (l : Links) (kin : List (Entity × Entity)) (p : Entity) :
    (l.attachAll kin).childrenOf p = l.childrenOf p ++ childrenAmong kin p := by
  induction kin generalizing l with
  | nil => exact (List.append_nil _).symm
  | cons x kin ih =>
    rw [attachAllCons, ih, childrenOfAttach]
    by_cases same : p = x.1
    · simp [childrenAmong, same]
    · simp [childrenAmong, same, Ne.symm same]

theorem parentOfUntouched (l : Links) {kin : List (Entity × Entity)} {c : Entity}
    (untouched : c ∉ kin.map (·.2)) : (l.attachAll kin).parentOf c = l.parentOf c := by
  induction kin generalizing l with
  | nil => rfl
  | cons x kin ih =>
    rw [List.map_cons, List.mem_cons, not_or] at untouched
    obtain ⟨other, later⟩ := untouched
    rw [attachAllCons, ih _ later, parentOfAttach, if_neg other]

theorem parentOfAttached (l : Links) {kin : List (Entity × Entity)}
    (unique : (kin.map (·.2)).Nodup) {x : Entity × Entity} (member : x ∈ kin) :
    (l.attachAll kin).parentOf x.2 = some x.1 := by
  induction kin generalizing l with
  | nil => cases member
  | cons y kin ih =>
    obtain ⟨once, unique⟩ := List.nodup_cons.mp unique
    rw [attachAllCons]
    rcases List.mem_cons.mp member with rfl | later
    · rw [parentOfUntouched _ once, parentOfAttach, if_pos rfl]
    · exact ih _ unique later

end Links

namespace Factory
open Entity (nth numbered)

/-! A node's own records change no link; a child that is attached adds its own. -/

theorem linksTold (f : Factory) {c : Call} (spared : ∀ s e, c ≠ .destroy s e) :
    (f.tell c).links = f.links := by
  unfold links tell
  rw [Systems.getTold]
  split
  · cases f.systems.get? .hierarchy with
    | none => rfl
    | some l =>
      cases c with
      | destroy s e => exact absurd rfl (spared s e)
      | create s e r => simp [SystemId.told, SystemId.hear, SystemId.store]
      | start | afterCreate | createChild => rfl
  · rfl

theorem linksNoteAll (f : Factory) (ns : List Notice) : (f.noteAll ns).links = f.links := by
  obtain ⟨journal, same⟩ := noteAllJournal f ns
  rw [same]
  rfl

theorem linksOffer (f : Factory) (e : Entity) (r : Record) : (f.offer e r).2.links = f.links := by
  unfold offer
  cases f.systemFor r.tag with
  | none => rfl
  | some s =>
    have told : (f.tell (.create s e r)).links = f.links := linksTold f fun _ _ => nofun
    cases held : f.systems.get? s with
    | none => simp only [held]
    | some state =>
      simp only [held]
      cases s.verdict state e r with
      | error error => exact told
      | ok => exact (linksNoteAll _ _).trans told

theorem linksOfferAll (e : Entity) (taken : List Offer) (b : Blueprint) (f : Factory) :
    (offerAll e taken b f).2.links = f.links := by
  induction b generalizing taken f with
  | nil => rfl
  | cons r b ih =>
    have offered := linksOffer f e r
    rw [offerAll]
    generalize f.offer e r = made at offered ⊢
    obtain ⟨answer, g⟩ := made
    cases answer with
    | none => exact (ih taken g).trans offered
    | some s => exact (ih ((s, r) :: taken) g).trans offered

theorem linksAfterAll (f : Factory) (e : Entity) (taken : List Offer) :
    (taken.foldl (afterCreate e) f).links = f.links := by
  induction taken generalizing f with
  | nil => rfl
  | cons offer taken ih =>
    have told : (f.tell (.afterCreate offer.1 e offer.2)).links = f.links :=
      linksTold f fun _ _ => nofun
    exact (ih (afterCreate e f offer)).trans ((linksNoteAll _ _).trans told)

theorem linksDispatch (f : Factory) (e : Entity) (b : Blueprint) :
    (f.dispatch e b).links = f.links :=
  (linksAfterAll _ e _).trans (linksOfferAll e [] b f)

theorem linksAttachChild {f : Factory} (held : f.systems.contains .hierarchy = true)
    {child : Entity} (valid : child.isValid = true) (parent : Entity) :
    (f.attachChild parent child).links = f.links.attach parent child := by
  obtain ⟨l, found⟩ := Option.isSome_iff_exists.mp held
  have attached : (f.systems.attach parent child).get? .hierarchy =
      some (l.attach parent child) := by
    rw [Systems.attach, Registry.getUpdateSelf, found]
    rfl
  unfold attachChild
  rw [if_pos valid]
  unfold links note
  simp only [attached, found, Option.getD_some]

theorem createChildAttaching {f : Factory} (hook : f.hook = .attaching)
    (fill : Entity → Factory → Factory) (b : Blueprint) (parent : Entity) :
    f.createChild fill b parent =
      (f.create.1, (fill f.create.1 f.create.2).attachChild parent f.create.1) := by
  unfold createChild
  rw [hook]

structure Attaching (f : Factory) : Prop where
  held : f.systems.contains .hierarchy = true
  hook : f.hook = .attaching

theorem Attaching.after {f g : Factory} (attaching : f.Attaching) (moves : Moves f g)
    (hook : g.hook = f.hook) : g.Attaching :=
  ⟨moves.contains attaching.held, hook.trans attaching.hook⟩

theorem linksBuildChildren {ts : List Tree}
    (built : ∀ t ∈ ts, ∀ {f : Factory} {k : Nat} (e : Entity), f.Attaching →
      f.counter.next = UInt64.ofNat k → 0 < k → k + Tree.forestCount t.children ≤ UInt64.size →
      (build e t f).links = f.links.attachAll (t.kinship e k))
    {f : Factory} {k : Nat} (attaching : f.Attaching) (start : f.counter.next = UInt64.ofNat k)
    (positive : 0 < k) (room : k + Tree.forestCount ts ≤ UInt64.size) (parent : Entity) :
    (buildChildren parent ts f).links = f.links.attachAll (Tree.forestKinship parent k ts) := by
  induction ts generalizing f k with
  | nil => rfl
  | cons t ts ih =>
    have count := t.nodeCountChildren
    rw [Tree.forestCount] at room
    have entity : f.create.1 = nth k := congrArg Entity.mk start
    have next : f.create.2.counter.next = UInt64.ofNat (k + 1) := Counter.nextAfter start rfl
    have created : f.create.2.Attaching := attaching.after (.create f) rfl
    have inside := built t (by simp) (nth k) created next (by omega) (by omega)
    have grown := buildGrown t (nth k) (.inr created.hook) next (by omega) (by omega)
    have filled := created.after (.build (nth k) t f.create.2) grown.hook
    have attached := linksAttachChild filled.held (Entity.nthValid positive (by omega)) parent
    obtain ⟨g, made, noted⟩ :=
      childGrown (.inr attaching.hook) start positive (by omega) grown parent
    rw [createChildAttaching attaching.hook, entity, Prod.mk.injEq] at made
    obtain ⟨-, rfl⟩ := made
    have moves : Moves f (((build (nth k) t f.create.2).attachChild parent (nth k)).noteChild parent
        (nth k)) := by
      refine .trans ?_ (.noteChild _ parent (nth k))
      exact entity ▸ .child parent (entity ▸ .build _ t f.create.2)
    -- The child is attached when its own tree is built, after all that was attached below it.
    have rest := ih (fun u member => built u (by simp [member])) (attaching.after moves noted.hook)
      (Counter.nextAfter start noted.issued) (by omega) (by omega)
    rw [buildChildren, createChildAttaching attaching.hook, entity, Tree.forestKinship,
      Links.attachAllAppend, Links.attachAllCons]
    have links : (((build (nth k) t f.create.2).attachChild parent (nth k)).noteChild parent
        (nth k)).links = (f.links.attachAll (t.kinship (nth k) (k + 1))).attach parent (nth k) :=
      attached.trans (congrArg (fun l : Links => l.attach parent (nth k)) inside)
    rw [links] at rest
    exact rest

theorem linksBuild (t : Tree) {f : Factory} {k : Nat} (e : Entity) (attaching : f.Attaching)
    (start : f.counter.next = UInt64.ofNat k) (positive : 0 < k)
    (room : k + Tree.forestCount t.children ≤ UInt64.size) :
    (build e t f).links = f.links.attachAll (t.kinship e k) := by
  induction t using Tree.byNodes generalizing f k e with
  | node b ts ih =>
    have here := dispatchGrown f e b
    have dispatched := attaching.after (.dispatch f e b) here.hook
    have below := linksBuildChildren (fun t member _ _ e => ih t member e) dispatched
      (Counter.nextAfter start here.issued) positive room e
    rw [linksDispatch] at below
    rw [build, Tree.kinship]
    exact below

/-! The links once a tree is created. -/

structure Grounded (f : Factory) : Prop where
  parents : ∀ c p, f.systems.parentOf c = some p →
    c.id.toNat ≤ f.counter.issued ∧ p.id.toNat ≤ f.counter.issued
  children : ∀ p, ∀ c ∈ f.systems.childrenOf p,
    c.id.toNat ≤ f.counter.issued ∧ p.id.toNat ≤ f.counter.issued

theorem Grounded.ofEntries {f : Factory}
    (parents : ∀ x ∈ f.links.parents.entries,
      x.1.id.toNat ≤ f.counter.issued ∧ x.2.id.toNat ≤ f.counter.issued)
    (children : ∀ x ∈ f.links.children.entries, ∀ c ∈ x.2,
      c.id.toNat ≤ f.counter.issued ∧ x.1.id.toNat ≤ f.counter.issued) : f.Grounded := by
  refine ⟨fun c p found => ?_, fun p c member => ?_⟩
  · rw [parentOfLinks] at found
    exact parents _ (Dict.memOfGet found)
  · rw [childrenOfLinks, Links.childrenOf] at member
    cases listed : f.links.children.get? p with
    | none => simp [listed] at member
    | some siblings =>
      rw [listed] at member
      exact children _ (Dict.memOfGet listed) c member

theorem Grounded.childless {f : Factory} (grounded : f.Grounded) {e : Entity}
    (fresh : f.counter.issued < e.id.toNat) : f.links.childrenOf e = [] := by
  refine List.eq_nil_iff_forall_not_mem.mpr fun c member => ?_
  rw [← childrenOfLinks] at member
  exact absurd (grounded.children e c member).2 (Nat.not_le_of_lt fresh)

theorem Grounded.orphan {f : Factory} (grounded : f.Grounded) {e : Entity}
    (fresh : f.counter.issued < e.id.toNat) : f.links.parentOf e = none := by
  cases found : f.links.parentOf e with
  | none => rfl
  | some p =>
    rw [← parentOfLinks] at found
    exact absurd (grounded.parents e p found).1 (Nat.not_le_of_lt fresh)

structure Mirrored (f g : Factory) (e : Entity) (k : Nat) (t : Tree) : Prop where
  root : g.links.childrenOf e = f.links.childrenOf e ++ Tree.roots k t.children
  below : ∀ family ∈ Tree.forestFamilies k t.children, g.links.childrenOf family.1 = family.2
  parents : ∀ family ∈ t.families e k, ∀ c ∈ family.2, g.links.parentOf c = some family.1
  parentsKept : ∀ d, d ∉ numbered k (Tree.forestCount t.children) →
    g.links.parentOf d = f.links.parentOf d
  childrenKept : ∀ d, d ∉ numbered k (Tree.forestCount t.children) → d ≠ e →
    g.links.childrenOf d = f.links.childrenOf d

theorem buildMirrored (t : Tree) {f : Factory} {e : Entity} (attaching : f.Attaching)
    (grounded : f.Grounded) (known : e.id.toNat ≤ f.counter.issued)
    (room : f.counter.issued + Tree.forestCount t.children < UInt64.size) :
    Mirrored f (build e t f) e (f.counter.issued + 1) t := by
  have inside : f.counter.issued + 1 + Tree.forestCount t.children ≤ UInt64.size := by omega
  have links := linksBuild t e attaching rfl (Nat.succ_pos _) inside
  have children := t.kinshipChildren e (f.counter.issued + 1)
  have unique := children.nodup_iff.mpr (Entity.numberedNodup inside)
  have among := t.childrenAmongFamily (e := e) inside (.inl (Nat.lt_succ_of_le known))
  obtain ⟨b, ts⟩ := t
  rw [Tree.families] at among
  refine ⟨?_, fun family member => ?_, fun family member c child => ?_, fun d outside => ?_,
    fun d outside other => ?_⟩
  · rw [links, Links.childrenOfAttachAll, among _ List.mem_cons_self]
    rfl
  · have number := Tree.forestFamilyNumber inside family member
    rw [links, Links.childrenOfAttachAll, grounded.childless (by omega), List.nil_append]
    exact among family (List.mem_cons_of_mem _ member)
  · rw [Tree.families] at member
    rw [← among family member] at child
    obtain ⟨x, kin, rfl⟩ := List.mem_map.mp child
    obtain ⟨kin, own⟩ := List.mem_filter.mp kin
    rw [links, Links.parentOfAttached _ unique kin, of_decide_eq_true own]
  · rw [links, Links.parentOfUntouched _ fun member => outside (children.mem_iff.mp member)]
  · rw [links, Links.childrenOfAttachAll, Tree.childrenAmongStranger other outside,
      List.append_nil]

/-- Populating an issued entity with a tree hangs a copy of the tree below it. The entities of the
copy are new, in pre-order; each has the children of its node, in order, and is the parent of each;
what else was linked is as it was. -/
theorem populateWithTreeMirror (f : Factory) (e : Entity) (t : Tree) (attaching : f.Attaching)
    (grounded : f.Grounded) (issued : f.counter.HasIssued e)
    (room : f.counter.issued + Tree.forestCount t.children < UInt64.size) :
    let k := f.counter.issued + 1
    let fresh := numbered k (Tree.forestCount t.children)
    let g := (f.populateWithTree e t).2
    (f.populateWithTree e t).1 = e ∧ (t.families e k).map (·.1) = e :: fresh ∧
      g.systems.childrenOf e = f.systems.childrenOf e ++ Tree.roots k t.children ∧
      (∀ family ∈ Tree.forestFamilies k t.children,
        g.systems.childrenOf family.1 = family.2) ∧
      (∀ family ∈ t.families e k, ∀ c ∈ family.2, g.systems.parentOf c = some family.1) ∧
      (∀ d, d ∉ fresh → g.systems.parentOf d = f.systems.parentOf d ∧
        (d ≠ e → g.systems.childrenOf d = f.systems.childrenOf d)) := by
  intro k fresh g
  have valid : e.isValid = true := by
    refine decide_eq_true fun same => ?_
    have positive := issued.1
    rw [same] at positive
    cases positive
  have made : f.populateWithTree e t = (e, build e t f) := if_pos valid
  have mirrored := buildMirrored t attaching grounded issued.2 room
  have after : g = build e t f := congrArg Prod.snd made
  rw [after, made]
  refine ⟨rfl, t.familiesFirst e k, ?_⟩
  simp only [parentOfLinks, childrenOfLinks]
  exact ⟨mirrored.root, mirrored.below, mirrored.parents, fun d outside =>
    ⟨mirrored.parentsKept d outside, mirrored.childrenKept d outside⟩⟩

theorem secondWheelMirror :
    let f : Factory := {
      systems := ⟨[⟨.plain, ()⟩, ⟨.hierarchy, {
        parents := ⟨[(⟨2⟩, ⟨1⟩), (⟨5⟩, ⟨3⟩)]⟩
        children := ⟨[(⟨1⟩, [⟨2⟩]), (⟨3⟩, [⟨5⟩])]⟩ }⟩]⟩
      attached := [.plain, .hierarchy]
      positions := ⟨[(.plain, 0), (.hierarchy, 1)]⟩
      routes := ⟨[(⟨7⟩, .plain)]⟩
      cache := { source := .memory {} 0 }
      counter := ⟨5⟩
      hook := .attaching }
    let t : Tree := .node [⟨⟨7⟩, .owned []⟩] [.node [] [.leaf [], .leaf []], .leaf []]
    let g := (f.populateWithTree ⟨1⟩ t).2
    f.Attaching ∧ f.Grounded ∧ f.counter.HasIssued ⟨1⟩ ∧
      g.systems.childrenOf ⟨1⟩ = [⟨2⟩, ⟨6⟩, ⟨9⟩] ∧
      g.systems.childrenOf ⟨6⟩ = [⟨7⟩, ⟨8⟩] ∧ g.systems.childrenOf ⟨9⟩ = [] ∧
      g.systems.parentOf ⟨7⟩ = some ⟨6⟩ ∧ g.systems.parentOf ⟨9⟩ = some ⟨1⟩ ∧
      g.systems.parentOf ⟨5⟩ = some ⟨3⟩ ∧ g.systems.childrenOf ⟨3⟩ = [⟨5⟩] := by
  intro f t g
  have attaching : f.Attaching := ⟨rfl, rfl⟩
  have grounded : f.Grounded := .ofEntries (by decide) (by decide)
  have issued : f.counter.HasIssued ⟨1⟩ := ⟨by decide, by decide⟩
  obtain ⟨-, -, own, below, parents, others⟩ :=
    populateWithTreeMirror f ⟨1⟩ t attaching grounded issued (by decide)
  have spared := others ⟨5⟩ (by decide)
  exact ⟨attaching, grounded, issued, own, below (⟨6⟩, [⟨7⟩, ⟨8⟩]) (by decide),
    below (⟨9⟩, []) (by decide), parents (⟨6⟩, [⟨7⟩, ⟨8⟩]) (by decide) ⟨7⟩ (by decide),
    parents (⟨1⟩, [⟨6⟩, ⟨9⟩]) (by decide) ⟨9⟩ (by decide), spared.1,
    (others ⟨3⟩ (by decide)).2 (by decide)⟩

end Factory
end EntityFoundry
