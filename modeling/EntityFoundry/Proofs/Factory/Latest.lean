import EntityFoundry.Proofs.Factory.Routes
import EntityFoundry.Proofs.Systems.Kept
/-! The components of an entity created from a blueprint. Of the records of one type the last one
that gives a value counts; a record that fails, or goes nowhere, does not show in the stores. -/
namespace EntityFoundry.Factory

def takenOf (f : Factory) (e : Entity) (b : Blueprint) : Blueprint :=
  (offerAll e [] b f).1.map (·.2)

section
variable {f : Factory} {k : Kind} (routed : f.taker? k.tag = some k.system)
include routed

theorem offersMeant (b : Blueprint) : Systems.Meant k (f.offers b) := by
  intro offer member isGiven
  have taker := offersTaker member
  obtain ⟨x, given⟩ := Option.isSome_iff_exists.mp isGiven
  rw [Kind.givenTag given, routed] at taker
  exact (Option.some.inj taker).symm

theorem offersGiven (b : Blueprint) :
    ((f.offers b).map (·.2)).filterMap k.given = b.filterMap k.given := by
  unfold offers
  induction b with
  | nil => rfl
  | cons r b ih =>
    cases given : k.given r with
    | none => cases found : f.taker? r.tag <;> simpa [found, given] using ih
    | some x =>
      have taker : f.taker? r.tag = some k.system := Kind.givenTag given ▸ routed
      simpa [taker, given] using ih

theorem dispatchKept (e : Entity) (b : Blueprint) :
    (f.dispatch e b).systems.get? k.system =
      (f.systems.get? k.system).map fun state => (b.filterMap k.given).foldl (k.keep e) state := by
  have stored : k.system ≠ .hierarchy := by cases k <;> simp
  rw [← (dispatchGrown f e b).systems.states k.system stored, nodeCalls, List.foldl_append,
    Systems.keptAfter, Systems.keptOffered _ e (offersMeant routed b), offersGiven routed]

theorem takenOfGiven (e : Entity) (b : Blueprint) :
    (f.takenOf e b).filterMap k.given = b.filterMap k.given := by
  have held : f.systems.contains k.system = true := (Option.filter_eq_some_iff.mp routed).2
  rw [takenOf, (offerAllTaken f e [] b).1, List.reverse_nil, List.nil_append,
    Systems.takenGiven held e (offersMeant routed b), offersGiven routed]

end

theorem Seated.routedTo {f : Factory} (seated : f.Seated) {s : SystemId} (attached : s ∈ f.attached)
    {tag : Tag} (routed : f.routes.get? tag = some s) : f.taker? tag = some s := by
  rw [seated.taker, seated.systemFor, routed]
  exact Option.filter_some_pos (decide_eq_true attached)

theorem createWithBlueprintLatest {f : Factory} (seated : f.Seated)
    (attached : ∀ k : Kind, k.system ∈ f.attached)
    (routed : ∀ k : Kind, f.routes.get? k.tag = some k.system)
    (clear : ∀ k, f.systems.valueOf k f.create.1 = none) (b : Blueprint) :
    let made := f.createWithBlueprint b
    (∀ k, made.2.systems.valueOf k made.1 = (b.filterMap k.given).getLast?) ∧
    (∀ k e, e ≠ made.1 → made.2.systems.valueOf k e = f.systems.valueOf k e) ∧
    ∀ k : Kind, made.2.systems.get? k.system =
      (f.createWithBlueprint (f.create.2.takenOf made.1 b)).2.systems.get? k.system := by
  have taker (k : Kind) : f.create.2.taker? k.tag = some k.system :=
    seated.routedTo (attached k) (routed k)
  have states (b : Blueprint) (k : Kind) :
      (f.createWithBlueprint b).2.systems.get? k.system =
        (f.systems.get? k.system).map fun state =>
          (b.filterMap k.given).foldl (k.keep f.create.1) state :=
    dispatchKept (taker k) f.create.1 b
  intro made
  refine ⟨fun k => ?_, fun k e other => ?_, fun k => ?_⟩
  · obtain ⟨state, held⟩ := Option.isSome_iff_exists.mp (seated.held _ (attached k))
    have empty : k.kept f.create.1 state = none := by
      have clear := clear k
      rwa [Systems.valueOf, held] at clear
    rw [Systems.valueOf, states, held]
    exact (Kind.keptKeepAll f.create.1 k state _).trans (by rw [empty, Option.or_none])
  · rw [Systems.valueOf, states, Systems.valueOf, Option.bind_map]
    exact congrArg _ (funext fun state => Kind.keptKeepOther other k state _)
  · rw [states, states, takenOfGiven (taker k) made.1 b]

theorem repeatedAndFailingLatest :
    let ops : List Op := [.createSystem .names {}, .createSystem .healths {},
      .createSystem .transforms {}, .createWithBlueprint [.ofValue .name "cart"]]
    let f := (initial {} (.memory {} 0)).run ops
    let hurt : Record := .ofValue .health ⟨⟨0x3f800000⟩, ⟨0x40000000⟩⟩
    let kept : Blueprint := [.ofValue .name "wheel", hurt, .ofValue .name "axle"]
    let b : Blueprint := [.ofValue .name "wheel", ⟨Kind.health.tag, .owned [0xc1]⟩, hurt,
      .ofValue .health ⟨⟨0x3f800000⟩, ⟨0x80000000⟩⟩, .ofValue .name "axle",
      ⟨Tag.ofName "LightDef", .owned []⟩, ⟨Kind.name.tag, .owned []⟩]
    let g := (f.createWithBlueprint b).2
    f.Seated ∧ f.attached = [.names, .healths, .transforms] ∧
      (∀ k : Kind, f.routes.get? k.tag = some k.system) ∧
      (∀ k, f.systems.valueOf k ⟨2⟩ = none) ∧
      g.systems.nameOf ⟨2⟩ = some "axle" ∧
      g.systems.healthOf ⟨2⟩ = some ⟨⟨0x3f800000⟩, ⟨0x40000000⟩⟩ ∧
      g.systems.transformOf ⟨2⟩ = none ∧ g.systems.nameOf ⟨1⟩ = some "cart" ∧
      ∀ k : Kind, g.systems.get? k.system =
        (f.createWithBlueprint kept).2.systems.get? k.system := by
  intro ops f hurt kept b g
  have seated : f.Seated := (Moves.run _ ops).seated (Unattached.seated ⟨rfl, rfl, rfl, rfl⟩)
  have attached : f.attached = [.names, .healths, .transforms] := by decide +kernel
  have routed (k : Kind) : f.routes.get? k.tag = some k.system := by cases k <;> decide +kernel
  have clear (k : Kind) : f.systems.valueOf k ⟨2⟩ = none := by cases k <;> decide +kernel
  have made : f.create.1 = ⟨2⟩ := by decide +kernel
  have taken : f.create.2.takenOf ⟨2⟩ b = kept := by decide +kernel
  obtain ⟨latest, others, same⟩ := createWithBlueprintLatest seated
    (fun k => by rw [attached]; cases k <;> decide) routed (made ▸ clear) b
  have own : (f.createWithBlueprint b).1 = ⟨2⟩ := made
  rw [own] at latest others same
  rw [taken] at same
  refine ⟨seated, attached, routed, clear, (latest .name).trans ?_, (latest .health).trans ?_,
    (latest .transform).trans ?_, (others .name ⟨1⟩ (by decide)).trans ?_, same⟩ <;>
  decide +kernel

end EntityFoundry.Factory
