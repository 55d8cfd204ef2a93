import EntityFoundry.Proofs.Factory.Growth
import EntityFoundry.Proofs.Numbering
/-! Creating a tree goes through it in pre-order. All calls for a node come before those for the
nodes below it, and the entities are numbered in the same order. -/
namespace EntityFoundry.Factory
open Entity (nth)

def callsThrough (offers : Blueprint → List Offer) : List (Entity × Blueprint) → Systems → List Call
  | [], _ => []
  | (e, b) :: nodes, all =>
    let here := nodeCalls e (offers b) all
    here ++ callsThrough offers nodes (here.foldl Systems.told all)

theorem nodeCallsLike {all other : Systems} (like : Systems.Like all other) (e : Entity)
    (offers : List Offer) : nodeCalls e offers all = nodeCalls e offers other := by
  unfold nodeCalls
  rw [like.taken]

theorem callsThroughLike {all other : Systems} (like : Systems.Like all other)
    (offers : Blueprint → List Offer) (nodes : List (Entity × Blueprint)) :
    callsThrough offers nodes all = callsThrough offers nodes other := by
  induction nodes generalizing all other with
  | nil => rfl
  | cons node nodes ih =>
    obtain ⟨e, b⟩ := node
    rw [callsThrough, callsThrough, nodeCallsLike like, ih (like.toldAll _)]

theorem callsThroughAppend (offers : Blueprint → List Offer)
    (first second : List (Entity × Blueprint)) (all : Systems) :
    callsThrough offers (first ++ second) all = callsThrough offers first all ++
      callsThrough offers second ((callsThrough offers first all).foldl Systems.told all) := by
  induction first generalizing all with
  | nil => rfl
  | cons node nodes ih =>
    obtain ⟨e, b⟩ := node
    simp only [List.cons_append, callsThrough, ih, List.foldl_append, List.append_assoc]

def Unscripted (f : Factory) : Prop := f.hook = .parentless ∨ f.hook = .attaching

theorem createChildGrown {f : Factory} (unscripted : f.Unscripted)
    (fill : Entity → Factory → Factory) (b : Blueprint) (parent : Entity) :
    (f.createChild fill b parent).1 = f.create.1 ∧
      Grown (fill f.create.1 f.create.2) (f.createChild fill b parent).2 0 [] [] := by
  unfold createChild
  rcases unscripted with hook | hook
  · rw [hook]
    exact ⟨rfl, .refl _⟩
  · rw [hook]
    exact ⟨rfl, .attachChild _ parent _⟩

theorem noteChildGrown {child : Entity} (valid : child.isValid = true) (f : Factory)
    (parent : Entity) : Grown f (f.noteChild parent child) 0 [] [(parent, child)] := by
  unfold noteChild
  rw [if_pos valid]
  exact .note f _

theorem childGrown {f : Factory} {t : Tree} {k : Nat} {cs : List Call}
    {kin : List (Entity × Entity)} (unscripted : f.Unscripted)
    (start : f.counter.next = UInt64.ofNat k) (positive : 0 < k) (small : k < UInt64.size)
    (built : Grown f.create.2 (build (nth k) t f.create.2) (Tree.forestCount t.children) cs kin)
    (parent : Entity) :
    ∃ g, f.createChild (fun child f => build child t f) t.blueprint parent = (nth k, g) ∧
      Grown f (g.noteChild parent (nth k)) t.nodeCount cs (kin ++ [(parent, nth k)]) := by
  obtain ⟨entity, attached⟩ :=
    createChildGrown unscripted (fun child f => build child t f) t.blueprint parent
  have child : f.create.1 = nth k := congrArg Entity.mk start
  rw [child] at entity attached
  refine ⟨_, Prod.ext entity rfl, ?_⟩
  have noted := noteChildGrown (Entity.nthValid positive small)
    (f.createChild (fun child f => build child t f) t.blueprint parent).2 parent
  have total := (((Grown.create f).trans built).trans attached).trans noted
  simpa only [List.nil_append, List.append_nil, Nat.add_zero, Nat.add_comm 1,
    ← t.nodeCountChildren] using total

theorem buildChildrenGrown {ts : List Tree}
    (built : ∀ t ∈ ts, ∀ {f : Factory} {k : Nat} (e : Entity), f.Unscripted →
      f.counter.next = UInt64.ofNat k → 0 < k → k + Tree.forestCount t.children ≤ UInt64.size →
      Grown f (build e t f) (Tree.forestCount t.children)
        (callsThrough f.offers (t.placed e k) f.systems) (t.kinship e k))
    {f : Factory} {k : Nat} (unscripted : f.Unscripted)
    (start : f.counter.next = UInt64.ofNat k) (positive : 0 < k)
    (room : k + Tree.forestCount ts ≤ UInt64.size) (parent : Entity) :
    Grown f (buildChildren parent ts f) (Tree.forestCount ts)
      (callsThrough f.offers (Tree.forestPlaced k ts) f.systems)
      (Tree.forestKinship parent k ts) := by
  induction ts generalizing f k with
  | nil => exact .refl f
  | cons t ts ih =>
    have count := t.nodeCountChildren
    rw [Tree.forestCount] at room
    have inside : Grown f.create.2 (build (nth k) t f.create.2) (Tree.forestCount t.children)
        (callsThrough f.offers (t.placed (nth k) (k + 1)) f.systems) (t.kinship (nth k) (k + 1)) :=
      built t (by simp) (nth k) unscripted (Counter.nextAfter start rfl) (by omega) (by omega)
    obtain ⟨g, made, grown⟩ := childGrown unscripted start positive (by omega) inside parent
    have next : (g.noteChild parent (nth k)).counter.next = UInt64.ofNat (k + t.nodeCount) :=
      Counter.nextAfter start grown.issued
    have hook : (g.noteChild parent (nth k)).Unscripted := by
      unfold Unscripted
      rw [grown.hook]
      exact unscripted
    have rest := ih (fun u member => built u (by simp [member])) hook next (by omega) (by omega)
    rw [grown.offers, ← callsThroughLike grown.systems] at rest
    rw [buildChildren, made, Tree.forestCount, Tree.forestPlaced, Tree.forestKinship,
      callsThroughAppend]
    have total := grown.trans rest
    rw [List.append_assoc, List.singleton_append] at total
    exact total

theorem buildGrown (t : Tree) {f : Factory} {k : Nat} (e : Entity) (unscripted : f.Unscripted)
    (start : f.counter.next = UInt64.ofNat k) (positive : 0 < k)
    (room : k + Tree.forestCount t.children ≤ UInt64.size) :
    Grown f (build e t f) (Tree.forestCount t.children)
      (callsThrough f.offers (t.placed e k) f.systems) (t.kinship e k) := by
  induction t using Tree.byNodes generalizing f k e with
  | node b ts ih =>
    have here := dispatchGrown f e b
    have hook : (f.dispatch e b).Unscripted := by
      unfold Unscripted
      rw [here.hook]
      exact unscripted
    have below := buildChildrenGrown (fun t member _ _ e => ih t member e) hook
      (Counter.nextAfter start here.issued) positive room e
    rw [here.offers, ← callsThroughLike here.systems] at below
    have total := here.trans below
    rw [Nat.zero_add, List.nil_append] at total
    exact total

/-! Where records are judged by themselves alone, one that no system takes costs its own call. -/

def Lost (f : Factory) (r : Record) : Prop :=
  ∀ s e, f.taker? r.tag = some s → f.systems.accepts e (s, r) = false

def lostCalls (f : Factory) (e : Entity) (r : Record) : List Call :=
  (f.taker? r.tag).toList.map fun s => .create s e r

theorem acceptsToldAll {all : Systems} (steady : all.Probes Probe.Steady) (cs : List Call)
    (e : Entity) : (cs.foldl Systems.told all).accepts e = all.accepts e := by
  induction cs generalizing all with
  | nil => rfl
  | cons c cs ih =>
    exact (ih (Systems.steadyTold steady c)).trans (funext (Systems.acceptsTold steady c e))

theorem steadyToldAll {all : Systems} (steady : all.Probes Probe.Steady) (cs : List Call) :
    (cs.foldl Systems.told all).Probes Probe.Steady := steady.toldAll (fun _ _ same => same) cs

theorem nodeCallsTold {all : Systems} (steady : all.Probes Probe.Steady) (e : Entity)
    (offers : List Offer) (cs : List Call) :
    nodeCalls e offers (cs.foldl Systems.told all) = nodeCalls e offers all := by
  unfold nodeCalls
  rw [Systems.takenSteady (steadyToldAll steady cs), Systems.takenSteady steady,
    acceptsToldAll steady]

theorem callsThroughTold {all : Systems} (steady : all.Probes Probe.Steady)
    (offers : Blueprint → List Offer) (nodes : List (Entity × Blueprint)) (cs : List Call) :
    callsThrough offers nodes (cs.foldl Systems.told all) = callsThrough offers nodes all := by
  induction nodes generalizing cs with
  | nil => rfl
  | cons node nodes ih =>
    obtain ⟨e, b⟩ := node
    simp only [callsThrough, nodeCallsTold steady, ← List.foldl_append, ih]

theorem offersInserted (f : Factory) (r : Record) (before after : Blueprint) :
    f.offers (before ++ r :: after) =
      f.offers before ++ (f.taker? r.tag).toList.map (·, r) ++ f.offers after := by
  unfold offers
  rw [List.filterMap_append]
  cases found : f.taker? r.tag with
  | none => simp [found]
  | some s => simp [found]

theorem nodeCallsLost {f : Factory} {r : Record} (steady : f.systems.Probes Probe.Steady)
    (lost : f.Lost r) (e : Entity) (before after : Blueprint) :
    ∃ first rest, nodeCalls e (f.offers (before ++ after)) f.systems = first ++ rest ∧
      nodeCalls e (f.offers (before ++ r :: after)) f.systems =
        first ++ f.lostCalls e r ++ rest := by
  have refused : ((f.taker? r.tag).toList.map (·, r)).filter (f.systems.accepts e) = [] := by
    refine List.filter_eq_nil_iff.mpr fun offer member => ?_
    obtain ⟨s, found, rfl⟩ := List.mem_map.mp member
    simp [lost s e (Option.mem_toList.mp found)]
  have without : f.offers (before ++ after) = f.offers before ++ f.offers after :=
    List.filterMap_append
  unfold nodeCalls
  rw [Systems.takenSteady steady, Systems.takenSteady steady, offersInserted, without]
  simp only [List.map_append, List.filter_append, refused, List.append_assoc]
  exact ⟨_, _, rfl, by simp [lostCalls]⟩

theorem callsThroughLost {f : Factory} {r : Record} (steady : f.systems.Probes Probe.Steady)
    (lost : f.Lost r) (first rest : List (Entity × Blueprint)) (e : Entity)
    (before after : Blueprint) :
    ∃ cs ds, callsThrough f.offers (first ++ (e, before ++ after) :: rest) f.systems = cs ++ ds ∧
      callsThrough f.offers (first ++ (e, before ++ r :: after) :: rest) f.systems =
        cs ++ f.lostCalls e r ++ ds := by
  obtain ⟨here, later, without, within⟩ := nodeCallsLost steady lost e before after
  refine ⟨callsThrough f.offers first f.systems ++ here,
    later ++ callsThrough f.offers rest f.systems, ?_, ?_⟩ <;>
    simp only [callsThroughAppend, callsThrough, callsThroughTold steady, nodeCallsTold steady,
      without, within, ← List.foldl_append, List.append_assoc]

theorem createWithTreeGrown {f : Factory} {t : Tree} (unscripted : f.Unscripted)
    (room : f.counter.next.toNat + t.nodeCount < UInt64.size) :
    let k := f.counter.next.toNat
    (f.createWithTree t).1 = nth k ∧
      Grown f (f.createWithTree t).2 t.nodeCount
        (callsThrough f.offers (t.placed (nth k) (k + 1)) f.systems)
        (t.kinship (nth k) (k + 1)) := by
  intro k
  have count := t.nodeCountChildren
  have start : f.counter.next = UInt64.ofNat k := (UInt64.ofNat_toNat).symm
  have entity : f.create.1 = nth k := congrArg Entity.mk start
  have built := buildGrown t (f := f.create.2) f.create.1 unscripted (Counter.nextAfter start rfl)
    (Nat.succ_pos k) (by omega)
  have total := (Grown.create f).trans built
  rw [List.nil_append, List.nil_append, entity, Nat.add_comm 1, ← count] at total
  refine ⟨entity, ?_⟩
  change Grown f (build f.create.1 t f.create.2) _ _ _
  rw [entity]
  exact total

/-- Creating a tree numbers its nodes in pre-order from the next entity on, and calls systems node
after node. A record that is lost wherever it is met costs its own call and changes nothing else. -/
theorem createWithTreePreOrder (f : Factory) (t : Tree) (unscripted : f.Unscripted)
    (room : f.counter.next.toNat + t.nodeCount < UInt64.size) :
    let k := f.counter.next.toNat
    let made := f.createWithTree t
    made.1 = nth k ∧ made.2.counter.next.toNat = k + t.nodeCount ∧
      made.2.kinship = f.kinship ++ t.kinship (nth k) (k + 1) ∧
      made.2.calls = f.calls ++ callsThrough f.offers
        ((t.preorder 0).mapIdx fun i node => (nth (k + i), node.2.2)) f.systems ∧
      (f.systems.Probes Probe.Steady → ∀ r u, f.Lost r → t.Inserted r u →
        let other := f.createWithTree u
        other.1 = made.1 ∧ other.2.counter = made.2.counter ∧ other.2.kinship = made.2.kinship ∧
          ∃ e before after, made.2.calls = before ++ after ∧
            other.2.calls = before ++ f.lostCalls e r ++ after) := by
  intro k made
  obtain ⟨entity, grown⟩ := createWithTreeGrown unscripted room
  have next : made.2.counter.next = UInt64.ofNat (k + t.nodeCount) :=
    Counter.nextAfter (UInt64.ofNat_toNat).symm grown.issued
  refine ⟨entity, ?_, grown.kinship, ?_, fun steady r u lost inserted => ?_⟩
  · rw [next, UInt64.toNat_ofNat_of_lt' room]
  · rw [← t.placedPreorder k 0]
    exact grown.calls
  · rw [← inserted.nodeCount] at room
    obtain ⟨entity', grown'⟩ := createWithTreeGrown unscripted room
    obtain ⟨first, e, before, after, rest, left, right⟩ := inserted.placed (nth k) (k + 1)
    obtain ⟨cs, ds, without, within⟩ := callsThroughLost steady lost first rest e before after
    refine ⟨entity'.trans entity.symm, ?_, ?_, e, f.calls ++ cs, ds, ?_, ?_⟩
    · have issued : (f.createWithTree u).2.counter.issued = made.2.counter.issued := by
        rw [grown'.issued, grown.issued, inserted.nodeCount]
      exact congrArg Counter.mk issued
    · rw [grown'.kinship, grown.kinship, inserted.kinship]
    · rw [grown.calls, left, without, List.append_assoc]
    · rw [grown'.calls, right, within]
      simp only [List.append_assoc]

theorem pickyProbePreOrder :
    let picky : Probe := { verdict := Probe.screen "picky" none [[0]] }
    let f : Factory := {
      systems := ⟨[⟨.hierarchy, {}⟩, ⟨.plain, ()⟩, ⟨.probe "picky", picky⟩]⟩
      attached := [.hierarchy, .plain, .probe "picky"]
      positions := ⟨[(.hierarchy, 0), (.plain, 1), (.probe "picky", 2)]⟩
      routes := ⟨[(⟨7⟩, .plain), (⟨9⟩, .probe "picky")]⟩
      cache := { source := .memory {} 0 }
      counter := ⟨4⟩
      hook := .attaching }
    let plain : Record := ⟨⟨7⟩, .owned [1]⟩
    let good : Record := ⟨⟨9⟩, .owned [5]⟩
    let bad : Record := ⟨⟨9⟩, .owned [0]⟩
    let t : Tree := .node [plain, ⟨⟨8⟩, .owned []⟩] [.node [good] [.leaf [plain]], .leaf []]
    let u : Tree := .node [plain, ⟨⟨8⟩, .owned []⟩] [.node [good, bad] [.leaf [plain]], .leaf []]
    let made := f.createWithTree t
    made.1 = ⟨5⟩ ∧ made.2.counter.next.toNat = 9 ∧
      made.2.kinship = [(⟨6⟩, ⟨7⟩), (⟨5⟩, ⟨6⟩), (⟨5⟩, ⟨8⟩)] ∧
      made.2.calls = [.create .plain ⟨5⟩ plain, .afterCreate .plain ⟨5⟩ plain,
        .create (.probe "picky") ⟨6⟩ good, .afterCreate (.probe "picky") ⟨6⟩ good,
        .create .plain ⟨7⟩ plain, .afterCreate .plain ⟨7⟩ plain] ∧
      ∃ e before after, made.2.calls = before ++ after ∧
        (f.createWithTree u).2.calls = before ++ f.lostCalls e bad ++ after := by
  intro picky f plain good bad t u made
  obtain ⟨entity, next, kinship, calls, others⟩ :=
    createWithTreePreOrder f t (.inr rfl) (by decide)
  have steady : f.systems.Probes Probe.Steady := by
    refine Systems.Probes.ofEntries fun label probe member => ?_
    simp only [f, List.mem_cons, List.not_mem_nil, or_false, reduceCtorEq, Sigma.mk.injEq,
      false_and, false_or] at member
    obtain ⟨same, alike⟩ := member
    cases same
    cases alike
    exact fun _ _ _ _ _ => rfl
  have lost : f.Lost bad := by
    intro s e found
    have routed : some (SystemId.probe "picky") = some s := found
    cases routed
    rfl
  have inserted : t.Inserted bad u :=
    .deeper _ [] [.leaf []] (.here [good] [] [.leaf [plain]])
  have traced : callsThrough f.offers ((t.preorder 0).mapIdx fun i node =>
      (nth (f.counter.next.toNat + i), node.2.2)) f.systems =
      [.create .plain ⟨5⟩ plain, .afterCreate .plain ⟨5⟩ plain,
        .create (.probe "picky") ⟨6⟩ good, .afterCreate (.probe "picky") ⟨6⟩ good,
        .create .plain ⟨7⟩ plain, .afterCreate .plain ⟨7⟩ plain] := by
    decide +kernel
  exact ⟨entity, next, kinship, calls.trans (congrArg _ traced),
    (others steady bad u lost inserted).2.2.2⟩

end EntityFoundry.Factory
