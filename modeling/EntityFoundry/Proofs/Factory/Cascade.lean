import EntityFoundry.Proofs.Factory.Destroying
/-! Destruction to the end of the queue. Every round queues the children of what it destroys, so
what is destroyed in all is what can be reached from the queue along the links there were. Nothing
is known of that any more; of all else everything is, except for children that are gone. -/
namespace EntityFoundry.Factory

inductive Doomed (children : Entity → List Entity) (q : List Entity) : Entity → Prop
  | queued {e : Entity} (member : e ∈ q) : Doomed children q e
  | child {p c : Entity} (parent : Doomed children q p) (member : c ∈ children p) :
      Doomed children q c

inductive Settles : Factory → Factory → Prop
  | done {f : Factory} (empty : f.queue = []) : Settles f f
  | round {f g : Factory} (busy : f.queue ≠ []) (rest : Settles f.destroyQueued g) : Settles f g

structure Cascaded (f g : Factory) (gone : List Entity) : Prop where
  calls : g.calls = f.calls ++ gone.flatMap fun e => f.attached.map (.destroy · e)
  attached : g.attached = f.attached
  nameOf : ∀ e, g.systems.nameOf e = if e ∈ gone then none else f.systems.nameOf e
  healthOf : ∀ e, g.systems.healthOf e = if e ∈ gone then none else f.systems.healthOf e
  transformOf : ∀ e, g.systems.transformOf e = if e ∈ gone then none else f.systems.transformOf e
  blueprintNames : ∀ e, g.blueprintNames.get? e =
    if e ∈ gone then none else f.blueprintNames.get? e
  parentOf : ∀ e, g.links.parentOf e =
    if e ∈ gone then none else (f.links.parentOf e).filter (· ∉ gone)
  childrenOf : ∀ e, g.links.childrenOf e =
    if e ∈ gone then [] else (f.links.childrenOf e).filter (· ∉ gone)

namespace Cascaded
variable {f g : Factory} {gone : List Entity}

theorem refl (f : Factory) : Cascaded f f [] := by
  refine ⟨by simp, rfl, fun e => by simp, fun e => by simp, fun e => by simp, fun e => by simp,
    fun e => ?_, fun e => ?_⟩
  · cases f.links.parentOf e <;> simp [Option.filter]
  · simp only [List.not_mem_nil, if_false, not_false_eq_true, decide_true]
    exact (List.filter_eq_self.mpr fun _ _ => rfl).symm

theorem later {α : Type} {gone : List Entity} {d e : Entity} {old new now : Option α}
    (before : now = if d ∈ gone then none else old) (after : new = if d = e then none else now) :
    new = if d ∈ gone ++ [e] then none else old := by
  rw [after, before]
  by_cases same : d = e <;> by_cases past : d ∈ gone <;> simp [same, past]

theorem destroy (cascaded : Cascaded f g gone) (ready : g.Ready) (e : Entity) :
    Cascaded f (g.destroy e) (gone ++ [e]) := by
  refine ⟨?_, ?_, fun d => ?_, fun d => ?_, fun d => ?_, fun d => ?_, fun d => ?_, fun d => ?_⟩
  · rw [ready.tended.callsDestroy, cascaded.calls, cascaded.attached]
    simp
  · rw [ready.tended.attachedDestroy, cascaded.attached]
  · exact later (cascaded.nameOf d) (ready.nameOfDestroy e d)
  · exact later (cascaded.healthOf d) (ready.healthOfDestroy e d)
  · exact later (cascaded.transformOf d) (ready.transformOfDestroy e d)
  · exact later (cascaded.blueprintNames d) (ready.blueprintNamesDestroy e d)
  · rw [ready.tended.linksDestroy, ready.paired.parentOfDetach, cascaded.parentOf]
    by_cases same : d = e <;> by_cases past : d ∈ gone <;> simp [same, past]
  · rw [ready.tended.linksDestroy, ready.paired.childrenOfDetach, cascaded.childrenOf]
    by_cases same : d = e <;> by_cases past : d ∈ gone <;> simp [same, past, List.filter_filter]
    exact List.filter_congr fun _ _ => Bool.and_comm _ _

theorem requeue (cascaded : Cascaded f g gone) (queue : List Entity) :
    Cascaded f { g with queue := queue } gone :=
  ⟨cascaded.calls, cascaded.attached, cascaded.nameOf, cascaded.healthOf, cascaded.transformOf,
    cascaded.blueprintNames, cascaded.parentOf, cascaded.childrenOf⟩

theorem note (cascaded : Cascaded f g gone) (n : Notice) : Cascaded f (g.note n) gone :=
  ⟨(callsNote g n).trans cascaded.calls, cascaded.attached, cascaded.nameOf, cascaded.healthOf,
    cascaded.transformOf, cascaded.blueprintNames, cascaded.parentOf, cascaded.childrenOf⟩

end Cascaded

/-- On the way: what is still to be destroyed stands for all that is doomed and not gone yet. -/
structure Cascading (f : Factory) (q : List Entity) (g : Factory) (gone todo : List Entity) :
    Prop where
  ready : g.Ready
  outcome : Cascaded f g gone
  doomed : ∀ e, e ∈ gone ∨ e ∈ todo → Doomed f.links.childrenOf q e
  start : ∀ e ∈ q, e ∈ gone ∨ e ∈ todo
  closed : ∀ p ∈ gone, ∀ c ∈ f.links.childrenOf p, c ∈ gone ∨ c ∈ todo

namespace Cascading
variable {f g : Factory} {q gone todo : List Entity}

theorem orphansDoomed {e : Entity} (cascading : Cascading f q g gone (e :: todo)) {c : Entity}
    (member : c ∈ g.links.orphans e) : c ∈ f.links.childrenOf e := by
  rw [cascading.ready.paired.orphansFilter, cascading.outcome.childrenOf] at member
  have child := (List.mem_filter.mp member).1
  split at child
  · cases child
  · exact (List.mem_filter.mp child).1

theorem orphansFound {e : Entity} (cascading : Cascading f q g gone (e :: todo)) {c : Entity}
    (new : e ∉ gone) (child : c ∈ f.links.childrenOf e) :
    c ∈ gone ∨ c = e ∨ c ∈ g.links.orphans e := by
  rw [cascading.ready.paired.orphansFilter, cascading.outcome.childrenOf, if_neg new]
  by_cases past : c ∈ gone
  · exact .inl past
  · by_cases same : c = e
    · exact .inr (.inl same)
    · exact .inr (.inr (by simp [child, past, same]))

theorem destroy {e : Entity} (cascading : Cascading f q g gone (e :: todo)) :
    Cascading f q (g.destroy e) (gone ++ [e]) (todo ++ g.links.orphans e) := by
  have kept {c : Entity} (place : c ∈ gone ∨ c ∈ e :: todo) :
      c ∈ gone ++ [e] ∨ c ∈ todo ++ g.links.orphans e := by
    rcases place with past | next
    · exact .inl (List.mem_append_left _ past)
    · rcases List.mem_cons.mp next with same | later
      · exact .inl (List.mem_append_right _ (List.mem_singleton.mpr same))
      · exact .inr (List.mem_append_left _ later)
  have here : Doomed f.links.childrenOf q e := cascading.doomed e (.inr (by simp))
  refine ⟨cascading.ready.destroy e, cascading.outcome.destroy cascading.ready e, ?_, ?_, ?_⟩
  · rintro c (past | next)
    · rcases List.mem_append.mp past with past | same
      · exact cascading.doomed c (.inl past)
      · exact List.mem_singleton.mp same ▸ here
    · rcases List.mem_append.mp next with later | orphan
      · exact cascading.doomed c (.inr (List.mem_cons_of_mem _ later))
      · exact .child here (cascading.orphansDoomed orphan)
  · exact fun c member => kept (cascading.start c member)
  · intro p member c child
    rcases List.mem_append.mp member with past | same
    · exact kept (cascading.closed p past c child)
    · obtain rfl := List.mem_singleton.mp same
      -- An entity destroyed once more has lost its children by then; they were seen to before.
      by_cases past : p ∈ gone
      · exact kept (cascading.closed p past c child)
      · rcases cascading.orphansFound past child with before | same | orphan
        · exact kept (.inl before)
        · exact kept (.inr (by simp [same]))
        · exact .inr (List.mem_append_right _ orphan)

theorem destroyAll {es : List Entity} (cascading : Cascading f q g gone (es ++ g.queue)) :
    Cascading f q (es.foldl Factory.destroy g) (gone ++ es) (es.foldl Factory.destroy g).queue := by
  induction es generalizing g gone with
  | nil => simpa using cascading
  | cons e es ih =>
    have next : Cascading f q (g.destroy e) (gone ++ [e]) (es ++ g.queue ++ g.links.orphans e) :=
      cascading.destroy
    rw [List.append_assoc, ← cascading.ready.tended.queueDestroy] at next
    have rest := ih next
    rw [List.append_assoc, List.singleton_append] at rest
    exact rest

theorem destroyQueued (cascading : Cascading f q g gone g.queue) :
    ∃ past, Cascading f q g.destroyQueued past g.destroyQueued.queue := by
  unfold Factory.destroyQueued
  cases queued : g.queue with
  | nil =>
    simp only [queued]
    exact ⟨gone, queued ▸ cascading⟩
  | cons e es =>
    rw [queued] at cascading
    have emptied : Cascading f q { g with queue := [] } gone ((e :: es) ++ []) := by
      rw [List.append_nil]
      exact ⟨cascading.ready.requeue [], cascading.outcome.requeue [], cascading.doomed,
        cascading.start, cascading.closed⟩
    have done := emptied.destroyAll
    exact ⟨_, done.ready.note _, done.outcome.note _, done.doomed, done.start, done.closed⟩

theorem settles {h : Factory} (settles : Settles g h) (cascading : Cascading f q g gone g.queue) :
    ∃ past, Cascading f q h past [] ∧ h.queue = [] := by
  induction settles generalizing gone with
  | done empty => exact ⟨gone, empty ▸ cascading, empty⟩
  | round busy rest ih =>
    obtain ⟨past, next⟩ := cascading.destroyQueued
    exact ih next

theorem allGone (cascading : Cascading f q g gone []) (e : Entity) :
    e ∈ gone ↔ Doomed f.links.childrenOf q e := by
  refine ⟨fun member => cascading.doomed e (.inl member), fun doomed => ?_⟩
  induction doomed with
  | queued member => simpa using cascading.start _ member
  | child parent member ih => simpa using cascading.closed _ ih _ member

end Cascading

/-! Every round after the first destroys children that were on a list until then, so the links
that are left bound the rounds. -/

theorem linkCountLoad (f : Factory) : f.linkCount = f.links.children.load := by
  unfold linkCount links
  cases f.systems.get? .hierarchy <;> rfl

namespace Ready
variable {f : Factory}

theorem destroyAll (ready : f.Ready) (es : List Entity) : (es.foldl Factory.destroy f).Ready := by
  induction es generalizing f with
  | nil => exact ready
  | cons e es ih => exact ih (ready.destroy e)

theorem loadDestroyAll (ready : f.Ready) (es : List Entity) :
    (es.foldl Factory.destroy f).linkCount + (es.foldl Factory.destroy f).queue.length ≤
      f.linkCount + f.queue.length := by
  induction es generalizing f with
  | nil => exact Nat.le_refl _
  | cons e es ih =>
    have rest := ih (ready.destroy e)
    have here := f.links.loadDetach e
    rw [ready.tended.queueDestroy, List.length_append, linkCountLoad (f.destroy e),
      ready.tended.linksDestroy] at rest
    rw [List.foldl_cons, linkCountLoad f]
    omega

theorem destroyQueued (ready : f.Ready) :
    f.destroyQueued.Ready ∧
      f.destroyQueued.linkCount + f.destroyQueued.queue.length ≤ f.linkCount := by
  unfold Factory.destroyQueued
  cases queued : f.queue with
  | nil =>
    simp only [queued]
    exact ⟨ready, Nat.le_refl _⟩
  | cons e es =>
    have emptied := ready.requeue []
    exact ⟨(emptied.destroyAll (e :: es)).note _, emptied.loadDestroyAll (e :: es)⟩

end Ready

theorem settleSettles {f : Factory} (ready : f.Ready) {rounds : Nat}
    (enough : f.linkCount < rounds ∨ f.queue = []) : Settles f (settle rounds f).2 := by
  induction rounds generalizing f with
  | zero =>
    rcases enough with few | empty
    · cases few
    · exact .done empty
  | succ rounds ih =>
    unfold settle
    cases queued : f.queue with
    | nil => exact .done queued
    | cons e es =>
      obtain ⟨next, fewer⟩ := ready.destroyQueued
      refine .round (by simp [queued]) (ih next ?_)
      cases left : f.destroyQueued.queue with
      | nil => exact .inr rfl
      | cons d ds =>
        have small := enough.resolve_right (by simp [queued])
        rw [left, List.length_cons] at fewer
        exact .inl (by omega)

structure Forgotten (f : Factory) (e : Entity) : Prop where
  name : f.systems.nameOf e = none
  health : f.systems.healthOf e = none
  transform : f.systems.transformOf e = none
  blueprintName : f.blueprintNames.get? e = none
  parent : f.systems.parentOf e = none
  children : f.systems.childrenOf e = []
  nobodysParent : ∀ c, f.systems.parentOf c ≠ some e
  nobodysChild : ∀ p, e ∉ f.systems.childrenOf p

structure Spared (f g : Factory) (gone : List Entity) (e : Entity) : Prop where
  name : g.systems.nameOf e = f.systems.nameOf e
  health : g.systems.healthOf e = f.systems.healthOf e
  transform : g.systems.transformOf e = f.systems.transformOf e
  blueprintName : g.blueprintNames.get? e = f.blueprintNames.get? e
  parent : g.systems.parentOf e = f.systems.parentOf e
  children : g.systems.childrenOf e = (f.systems.childrenOf e).filter (· ∉ gone)

theorem Cascaded.forgotten {f g : Factory} {gone : List Entity} (cascaded : Cascaded f g gone)
    {e : Entity} (member : e ∈ gone) : g.Forgotten e := by
  refine ⟨?_, ?_, ?_, ?_, ?_, ?_, fun c found => ?_, fun p child => ?_⟩
  · rw [cascaded.nameOf, if_pos member]
  · rw [cascaded.healthOf, if_pos member]
  · rw [cascaded.transformOf, if_pos member]
  · rw [cascaded.blueprintNames, if_pos member]
  · rw [parentOfLinks, cascaded.parentOf, if_pos member]
  · rw [childrenOfLinks, cascaded.childrenOf, if_pos member]
  · rw [parentOfLinks, cascaded.parentOf] at found
    split at found
    · cases found
    · exact of_decide_eq_true (Option.filter_eq_some_iff.mp found).2 member
  · rw [childrenOfLinks, cascaded.childrenOf] at child
    split at child
    · cases child
    · exact of_decide_eq_true (List.mem_filter.mp child).2 member

theorem Cascading.spared {f g : Factory} {q gone : List Entity} (paired : f.links.Paired)
    (cascading : Cascading f q g gone []) {e : Entity} (other : e ∉ gone) :
    Spared f g gone e := by
  have cascaded := cascading.outcome
  refine ⟨?_, ?_, ?_, ?_, ?_, ?_⟩
  · rw [cascaded.nameOf, if_neg other]
  · rw [cascaded.healthOf, if_neg other]
  · rw [cascaded.transformOf, if_neg other]
  · rw [cascaded.blueprintNames, if_neg other]
  · rw [parentOfLinks, parentOfLinks, cascaded.parentOf, if_neg other]
    cases found : f.links.parentOf e with
    | none => rfl
    | some p =>
      -- Had the parent been destroyed, the entity would have been queued with its siblings.
      have survives : p ∉ gone := fun past => by
        rcases cascading.closed p past e ((paired.agree e p).mp found) with member | todo
        · exact other member
        · cases todo
      simp [Option.filter, survives]
  · rw [childrenOfLinks, childrenOfLinks, cascaded.childrenOf, if_neg other]

/-- Working the queue off after any run comes to an end. Exactly the queued entities and those below
them are destroyed; nothing is known of them any more, and all else is as it was. -/
theorem settleAllCascade (config : Config) (source : AssetSource) (ops : List Op)
    (q : List Entity) :
    let f : Factory := { (initial config source).run ops with queue := q }
    f.counter.issued < UInt64.size - 1 →
    (∀ s ∈ [SystemId.names, .healths, .transforms, .hierarchy], s ∈ f.attached) →
    f.systems.Probes Probe.Idle →
    Settles f f.settleAll ∧ f.settleAll.queue = [] ∧
      ∃ gone, (∀ e, e ∈ gone ↔ Doomed f.systems.childrenOf q e) ∧
        f.settleAll.calls = f.calls ++ gone.flatMap (fun e => f.attached.map (.destroy · e)) ∧
        ∀ e, if e ∈ gone then f.settleAll.Forgotten e else Spared f f.settleAll gone e := by
  intro f few attached idle
  have linked := linkedRun config source ops (Nat.lt_trans few (by omega))
  have seated := seatedRun config source ops
  have paired : f.links.Paired := linked.paired
  have ready : f.Ready := ⟨⟨seated.seats, seated.held⟩, paired, idle, attached⟩
  have settles : Settles f f.settleAll := settleSettles ready (.inl (Nat.lt_succ_self _))
  have start : Cascading f q f [] f.queue :=
    ⟨ready, .refl f, fun e place => .queued (by simpa using place), fun e member => .inr member,
      fun p past => nomatch past⟩
  obtain ⟨gone, done, empty⟩ := start.settles settles
  refine ⟨settles, empty, gone, fun e => ?_, done.outcome.calls, fun e => ?_⟩
  · rw [funext (childrenOfLinks f)]
    exact done.allGone e
  · split
    next member => exact done.outcome.forgotten member
    next other => exact done.spared paired other

theorem cartsCascade :
    let wheel : Tree := .leaf [.ofValue .name "wheel"]
    let cart : Tree := .node [.ofValue .name "cart"] [.node [] [wheel], wheel]
    let ops : List Op := [.createSystem .names {}, .createSystem .healths {},
      .createSystem .transforms {}, .createSystem .hierarchy {}, .createSystem .plain {},
      .setHook .attaching, .createWithTree cart, .createWithTree cart]
    let q : List Entity := [⟨2⟩, ⟨70⟩, ⟨3⟩, ⟨2⟩]
    let f : Factory := { (initial {} (.memory {} 0)).run ops with queue := q }
    f.counter.issued = 8 ∧ f.systems.childrenOf ⟨1⟩ = [⟨2⟩, ⟨4⟩] ∧
      Settles f f.settleAll ∧ f.settleAll.queue = [] ∧
      ∃ gone, (∀ e, e ∈ gone ↔ Doomed f.systems.childrenOf q e) ∧
        f.settleAll.calls = f.calls ++ gone.flatMap (fun e => f.attached.map (.destroy · e)) ∧
        ∀ e, if e ∈ gone then f.settleAll.Forgotten e else Spared f f.settleAll gone e := by
  intro wheel cart ops q f
  have issued : f.counter.issued = 8 := by decide +kernel
  have children : f.systems.childrenOf ⟨1⟩ = [⟨2⟩, ⟨4⟩] := by decide +kernel
  have attached : f.attached = [.names, .healths, .transforms, .hierarchy, .plain] := by
    decide +kernel
  have keys : f.systems.keys = [.names, .healths, .transforms, .hierarchy, .plain] := by
    decide +kernel
  have idle : f.systems.Probes Probe.Idle := by
    refine Systems.Probes.ofEntries fun label probe member => ?_
    have key : SystemId.probe label ∈ f.systems.keys := List.mem_map_of_mem (f := Sigma.fst) member
    simp [keys] at key
  refine ⟨issued, children, settleAllCascade {} (.memory {} 0) ops q ?_ ?_ idle⟩
  · rw [issued]
    decide
  · rw [attached]
    decide

end EntityFoundry.Factory
