import EntityFoundry.Proofs.Factory.Growth
import EntityFoundry.Proofs.Factory.Steps
import EntityFoundry.Proofs.Systems.Kept
/-! The greatest health of entities. It comes from the records alone: an entity has the maximum of
the last record its system took for it since it was destroyed. What is stored is positive unless it
is no number, since no comparison with zero holds of that. -/
namespace EntityFoundry

namespace Single

def IsPositive (x : Single) : Prop :=
  match x.reading with
  | .notNumber => False
  | .infinite negative => negative = false
  | .finite negative m _ => negative = false ∧ 0 < m

theorem positiveOrNaN (x : Single) :
    x.isNonPositive = false ↔ x.IsPositive ∨ x.isNaN = true := by
  unfold isNonPositive IsPositive isNaN
  cases x.reading with
  | notNumber => simp
  | infinite negative => simp
  | finite negative m e => simp [Nat.pos_iff_ne_zero]

theorem IsPositive.number {x : Single} (positive : x.IsPositive) : x.isNaN = false := by
  unfold IsPositive at positive
  unfold isNaN
  cases read : x.reading with
  | notNumber =>
    rw [read] at positive
    exact positive.elim
  | infinite | finite => simp

end Single

def Call.maximum (e : Entity) (max : Option Single) : Call → Option Single
  | .create .healths d r => if e = d then ((Kind.health.given r).map (·.max)).or max else max
  | .destroy .healths d => if e = d then none else max
  | _ => max

theorem Call.maximumElsewhere {c : Call} (other : c.system? ≠ some .healths) (e : Entity)
    (max : Option Single) : c.maximum e max = max := by
  unfold maximum
  split
  · exact absurd rfl other
  · exact absurd rfl other
  · rfl

theorem Call.maximumHeard {c : Call} (called : c.system? = some .healths) (e : Entity)
    (h : HealthStore) :
    ((Kind.health.kept e (SystemId.healths.told c h)).map (·.max)) =
      c.maximum e ((Kind.health.kept e h).map (·.max)) := by
  cases c with
  | start s registered => rfl
  | create s d r =>
    cases called
    rw [Kind.toldCreate .healths .health h d r]
    cases given : Kind.health.given r with
    | none => simp [maximum, given]
    | some health =>
      rw [Kind.keptKeep d e .health h health]
      by_cases same : e = d <;> simp [maximum, given, same]
  | afterCreate s d r => rfl
  | destroy s d =>
    cases called
    rw [Kind.keptDestroy .healths d e .health h]
    by_cases same : e = d <;> simp [maximum, same]
  | createChild => cases called

theorem Call.maximumAdmitted {c : Call} {e : Entity} {max : Option Single}
    (admitted : ∀ x, max = some x → x.isNonPositive = false) :
    ∀ x, c.maximum e max = some x → x.isNonPositive = false := by
  unfold maximum
  split
  next d r =>
    split
    · cases given : Kind.health.given r with
      | none => simpa using admitted
      | some health =>
        intro x same
        cases same
        have admits := (Option.filter_eq_some_iff.mp given).2
        simpa [Kind.admits] using admits
    · exact admitted
  next d =>
    split
    · intro x none
      cases none
    · exact admitted
  next => exact admitted

theorem Call.maximaAdmitted (cs : List Call) {e : Entity} {max : Option Single}
    (admitted : ∀ x, max = some x → x.isNonPositive = false) :
    ∀ x, cs.foldl (maximum e) max = some x → x.isNonPositive = false := by
  induction cs generalizing max with
  | nil => exact admitted
  | cons c cs ih => exact ih (maximumAdmitted admitted)

namespace Systems

def maximumOf (all : Systems) (e : Entity) : Option Single := (all.healthOf e).map (·.max)

def Reached (all : Systems) (c : Call) : Prop :=
  ∀ e r, c = .create .healths e r → all.contains .healths = true

theorem maximumTold {all : Systems} {c : Call} (reached : all.Reached c) (e : Entity) :
    (all.told c).maximumOf e = c.maximum e (all.maximumOf e) := by
  have told := getTold all c .healths
  unfold maximumOf healthOf
  by_cases called : c.system? = some .healths
  · rw [told, if_pos called]
    cases held : all.get? .healths with
    | some h => exact c.maximumHeard called e h
    | none =>
      unfold Call.maximum
      split
      next d r =>
        have holds := reached d r rfl
        simp [Registry.contains, held] at holds
      · simp
      · rfl
  · rw [told, if_neg called, c.maximumElsewhere called]

theorem maximumToldAll {all : Systems} {cs : List Call} (reached : ∀ c ∈ cs, all.Reached c)
    (e : Entity) :
    (cs.foldl told all).maximumOf e = cs.foldl (Call.maximum e) (all.maximumOf e) := by
  induction cs generalizing all with
  | nil => rfl
  | cons c cs ih =>
    obtain ⟨first, later⟩ := List.forall_mem_cons.mp reached
    rw [List.foldl_cons, List.foldl_cons, ← maximumTold first]
    exact ih fun d member e r same => (containsTold all c .healths).trans (later d member e r same)

theorem Like.maximumOf {all other : Systems} (like : Like all other) (e : Entity) :
    all.maximumOf e = other.maximumOf e := by
  unfold Systems.maximumOf healthOf
  rw [like.states .healths (by simp)]

theorem maximumCreated {all more : Systems} {s : SystemId} {p : Probe}
    (created : all.create? s (s.fresh p) = some more) (e : Entity) :
    more.maximumOf e = all.maximumOf e := by
  unfold maximumOf healthOf
  rw [Registry.getCreated created]
  cases all.get? .healths with
  | some h => rfl
  | none =>
    by_cases same : s = .healths
    · subst same
      rfl
    · simp [Registry.find, same]

theorem maximumDamaged {all hurt : Systems} {d : Entity} {amount left : Single}
    (done : all.damage d amount = some (left, hurt)) (e : Entity) :
    hurt.maximumOf e = all.maximumOf e := by
  unfold damage at done
  simp only [bind, Option.bind_eq_some_iff] at done
  obtain ⟨h, held, health, found, last⟩ := done
  cases last
  unfold maximumOf healthOf
  rw [Registry.getSetSelf, held]
  simp only [Option.map_some, Option.bind_some, Dict.getInsert]
  split
  next same => simp [same, found]
  next => rfl

end Systems

namespace Factory

structure Maximal (f g : Factory) (cs : List Call) : Prop where
  calls : g.calls = f.calls ++ cs
  maxima : ∀ e, g.systems.maximumOf e = cs.foldl (Call.maximum e) (f.systems.maximumOf e)

namespace Maximal
variable {f g h : Factory} {cs ds : List Call}

theorem kept (calls : g.calls = f.calls) (systems : g.systems = f.systems) : Maximal f g [] :=
  ⟨calls.trans (List.append_nil _).symm, fun e => by rw [systems, List.foldl_nil]⟩

theorem trans (first : Maximal f g cs) (second : Maximal g h ds) : Maximal f h (cs ++ ds) where
  calls := by rw [second.calls, first.calls, List.append_assoc]
  maxima e := by rw [second.maxima, first.maxima, List.foldl_append]

theorem tell {c : Call} (reached : f.systems.Reached c) : Maximal f (f.tell c) [c] :=
  ⟨callsTell f c, Systems.maximumTold reached⟩

theorem grown {n : Nat} {kin : List (Entity × Entity)} (grown : Grown f g n cs kin)
    (reached : ∀ c ∈ cs, f.systems.Reached c) : Maximal f g cs :=
  ⟨grown.calls, fun e => (grown.systems.maximumOf e).symm.trans (Systems.maximumToldAll reached e)⟩

theorem dispatch (f : Factory) (e : Entity) (b : Blueprint) :
    Maximal f (f.dispatch e b) (nodeCalls e (f.offers b) f.systems) := by
  refine grown (dispatchGrown f e b) fun c member d r same => ?_
  subst same
  rcases List.mem_append.mp member with offered | after
  · obtain ⟨⟨s, offered⟩, among, made⟩ := List.mem_map.mp offered
    cases made
    exact (Option.filter_eq_some_iff.mp (offersTaker among)).2
  · obtain ⟨offer, -, made⟩ := List.mem_map.mp after
    cases made

theorem attachChild (f : Factory) (parent child : Entity) :
    Maximal f (f.attachChild parent child) [] :=
  grown (.attachChild f parent child) (List.forall_mem_nil _)

end Maximal

def Traced (f g : Factory) : Prop := ∃ cs, Maximal f g cs

namespace Traced
variable {f g h : Factory}

theorem kept (calls : g.calls = f.calls) (systems : g.systems = f.systems) : Traced f g :=
  ⟨[], .kept calls systems⟩

theorem trans (first : Traced f g) (second : Traced g h) : Traced f h := by
  obtain ⟨cs, before⟩ := first
  obtain ⟨ds, after⟩ := second
  exact ⟨cs ++ ds, before.trans after⟩

theorem arranged (arranges : Arranges (fun _ => False) f g) : Traced f g := by
  -- No record is offered meanwhile, so no call creates anything.
  induction arranges with
  | refl f => exact kept rfl rfl
  | trans first second ihf ihs => exact ihf.trans ihs
  | note f n => exact kept (callsNote f n) rfl
  | told f about => exact ⟨_, .tell fun e r same => (about _ e r same).elim⟩
  | registered created =>
    exact ⟨[], (List.append_nil _).symm, fun e => Systems.maximumCreated created e⟩
  | damaged hurt => exact ⟨[], (List.append_nil _).symm, fun e => Systems.maximumDamaged hurt e⟩
  | @placed f s held =>
    unfold place
    split <;> exact kept rfl rfl
  | routed | adjusted => exact kept rfl rfl

theorem does {p : Progress} (does : Does (fun _ => False) f p) : Traced f p.factory := by
  cases does with
  | arranges n after =>
    obtain ⟨cs, maximal⟩ := arranged after
    exact ⟨cs, maximal.calls, maximal.maxima⟩
  | attaches child allowed => exact allowed.elim
  | names allowed name n => exact allowed.elim
  | forgets e n => exact kept (callsNote _ n) rfl
  | queues e => exact kept rfl rfl

theorem perform (f : Factory) (task : Task) : Traced f (f.perform task).factory := by
  cases task with
  | dispatch e b => exact ⟨_, .dispatch f e b⟩
  | child parent t => exact does (.startChild f parent t)
  | attach parent child => exact ⟨[], .attachChild f parent child⟩
  | name e name => exact kept (callsNote _ _) rfl
  | announce | note | tell | push | forget => exact does (.perform (by trivial) f)

theorem opening (f : Factory) (op : Op) : Traced f (f.opening op).2.factory := by
  cases takes : op.takes with
  | false => exact does (.opening f takes)
  | true =>
    rw [(openingTakes f takes).1]
    exact kept rfl rfl

theorem run (f : Factory) (ops : List Op) : Traced f (f.run ops) :=
  runSteps (fun _ => kept rfl rfl) trans perform opening f ops

end Traced

theorem storedMaximaAccepted {f : Factory} (bare : ∀ e, f.systems.healthOf e = none)
    (ops : List Op) :
    let g := f.run ops
    ∃ cs, g.calls = f.calls ++ cs ∧
      (∀ e, (g.systems.healthOf e).map (·.max) = cs.foldl (Call.maximum e) none) ∧
      (∀ e h, g.systems.healthOf e = some h → h.max.IsPositive ∨ h.max.isNaN = true) ∧
      ((∀ e h, g.systems.healthOf e = some h → h.max.IsPositive) ↔
        ∀ e max, cs.foldl (Call.maximum e) none = some max → max.isNaN = false) := by
  intro g
  obtain ⟨cs, maximal⟩ := Traced.run f ops
  have maxima (e : Entity) :
      (g.systems.healthOf e).map (·.max) = cs.foldl (Call.maximum e) none := by
    have before : f.systems.maximumOf e = none := by rw [Systems.maximumOf, bare, Option.map_none]
    exact before ▸ maximal.maxima e
  have accepted (e : Entity) (h : Health) (found : g.systems.healthOf e = some h) :
      h.max.IsPositive ∨ h.max.isNaN = true := by
    have folded := maxima e
    rw [found] at folded
    have start : ∀ x : Single, none = some x → x.isNonPositive = false := nofun
    exact h.max.positiveOrNaN.mp (Call.maximaAdmitted cs start h.max folded.symm)
  refine ⟨cs, maximal.calls, maxima, accepted, fun positive e max folded => ?_,
    fun numbers e h found => ?_⟩
  · obtain ⟨h, found, rfl⟩ := Option.map_eq_some_iff.mp ((maxima e).trans folded)
    exact (positive e h found).number
  · have folded := maxima e
    rw [found] at folded
    refine (accepted e h found).resolve_right fun nan => ?_
    exact absurd (nan.symm.trans (numbers e h.max folded.symm)) nofun

theorem zeroMaxRefused :
    let f := initial {} (.memory {} 0)
    let made : Record := .ofValue .health ⟨⟨0x42480000⟩, ⟨0x42c80000⟩⟩
    let zero : Record := .ofValue .health ⟨⟨0x3f800000⟩, ⟨0x80000000⟩⟩
    let g := f.run [.createSystem .healths {}, .createWithBlueprint [made, zero],
      .damage ⟨1⟩ ⟨0x42700000⟩]
    (∀ e, f.systems.healthOf e = none) ∧
      g.calls = [.create .healths ⟨1⟩ made, .create .healths ⟨1⟩ zero,
        .afterCreate .healths ⟨1⟩ made] ∧
      g.systems.healthOf ⟨1⟩ = some ⟨.zero, ⟨0x42c80000⟩⟩ ∧
      ∀ e h, g.systems.healthOf e = some h → h.max.IsPositive := by
  intro f made zero g
  have bare (e : Entity) : f.systems.healthOf e = none := rfl
  obtain ⟨cs, calls, -, -, numbers⟩ := storedMaximaAccepted bare
    [.createSystem .healths {}, .createWithBlueprint [made, zero], .damage ⟨1⟩ ⟨0x42700000⟩]
  have logged : g.calls = [.create .healths ⟨1⟩ made, .create .healths ⟨1⟩ zero,
      .afterCreate .healths ⟨1⟩ made] := by
    decide +kernel
  obtain rfl : cs = _ := calls.symm.trans logged
  refine ⟨bare, logged, by decide +kernel, numbers.mpr fun e max folded => ?_⟩
  have first : Kind.health.given made = some ⟨⟨0x42480000⟩, ⟨0x42c80000⟩⟩ := by decide +kernel
  have second : Kind.health.given zero = none := by decide +kernel
  simp only [List.foldl_cons, List.foldl_nil, Call.maximum, first, second] at folded
  by_cases same : e = ⟨1⟩
  · simp [same] at folded
    subst folded
    decide
  · simp [same] at folded

theorem nanMaxStored :
    let nan : Single := ⟨0x7fc00000⟩
    let g := (initial {} (.memory {} 0)).run
      [.createSystem .healths {}, .createWithBlueprint [.ofValue .health ⟨.zero, nan⟩]]
    g.systems.healthOf ⟨1⟩ = some ⟨.zero, nan⟩ ∧ nan.isNaN = true ∧
      ¬ ∀ e h, g.systems.healthOf e = some h → h.max.IsPositive := by
  intro nan g
  have stored : g.systems.healthOf ⟨1⟩ = some ⟨.zero, nan⟩ := by decide +kernel
  refine ⟨stored, by decide, fun positive => ?_⟩
  exact absurd (positive ⟨1⟩ _ stored).number (by decide)

end Factory
end EntityFoundry
