import EntityFoundry.Proofs.Factory.Labelling
import EntityFoundry.Proofs.Factory.Latest
/-! What is reported of an entity that spawns with health. Healths report when every record of the
entity has been offered, each of those that were stored once, and by then all names and all healths
are in place. So the order of the records counts only within one type. -/
namespace EntityFoundry

def Kind.read (k : Kind) (bytes : Bytes) : Option k.Value :=
  (k.target.decode bytes).toOption.filter k.admits

def Blueprint.payloads (b : Blueprint) (k : Kind) : List Bytes :=
  (b.filter (·.tag = k.tag)).map (·.data.bytes)

theorem Blueprint.givenPayloads (b : Blueprint) (k : Kind) :
    b.filterMap k.given = (b.payloads k).filterMap k.read := by
  unfold payloads
  induction b with
  | nil => rfl
  | cons r b ih =>
    by_cases own : r.tag = k.tag
    · have given : k.given r = k.read r.data.bytes := by
        unfold Kind.given Kind.read Record.decode
        rw [if_pos own]
        cases k.target.decode r.data.bytes <;> rfl
      simp [List.filterMap_cons, own, given, ih]
    · have given : k.given r = none := by
        unfold Kind.given Record.decode
        rw [if_neg own]
        rfl
      simp [own, given, ih]

namespace Systems

theorem takenAccepted (k : Kind) (all : Systems) (e : Entity) (offers : List Offer) :
    ∀ offer ∈ taken e offers all,
      offer ∈ offers ∧ (offer.1 = k.system → (k.given offer.2).isSome = true) := by
  induction offers generalizing all with
  | nil => exact List.forall_mem_nil _
  | cons offer offers ih =>
    have later := fun o member =>
      (ih (all.told (.create offer.1 e offer.2)) o member).imp_left (List.mem_cons_of_mem offer)
    rw [taken]
    cases accepted : all.accepts e offer with
    | false => exact later
    | true =>
      refine List.forall_mem_cons.mpr ⟨⟨List.mem_cons_self, fun meant => ?_⟩, later⟩
      obtain ⟨s, r⟩ := offer
      obtain rfl : s = k.system := meant
      unfold accepts at accepted
      split at accepted
      next state held => exact Kind.acceptsGiven k state e r ▸ accepted
      next => cases accepted

theorem takenOwn {k : Kind} {all : Systems} (e : Entity) {offers : List Offer}
    (meant : Meant k offers) :
    (taken e offers all).filter (·.1 = k.system) =
      (taken e offers all).filter fun offer => (k.given offer.2).isSome := by
  refine List.filter_congr fun offer member => ?_
  obtain ⟨offered, accepted⟩ := takenAccepted k all e offers offer member
  rw [Bool.eq_iff_iff, decide_eq_true_iff]
  exact ⟨accepted, meant offer offered⟩

theorem afterNoticesAgree {all other : Systems}
    (same : ∀ k : Kind, all.get? k.system = other.get? k.system) (e : Entity) (s : SystemId) :
    all.afterNotices e s = other.afterNotices e s := by
  have names : all.get? .names = other.get? .names := same .name
  have healths : all.get? .healths = other.get? .healths := same .health
  unfold afterNotices nameOf
  rw [names, healths]

theorem Labelled.afterNotices {all : Systems} (labelled : all.Labelled) (e : Entity) :
    all.afterNotices e .healths = ((all.valueOf .health e).map fun health =>
      .spawned e ((all.valueOf .name e).getD "<unnamed>") health).toList := by
  obtain ⟨h, held, known⟩ := Option.map_eq_some_iff.mp labelled.healths
  have health : all.valueOf .health e = h.healths.get? e := by
    unfold valueOf
    rw [held]
    rfl
  unfold Systems.afterNotices
  simp only [held, known, if_true, health]
  cases h.healths.get? e <;> rfl

end Systems

def Entry.spawn? : Entry → Option Notice
  | .notice n => if n.message = "spawned with health" then some n else none
  | .call _ => none

namespace Factory

def spawns (f : Factory) : List Notice := f.readOff Entry.spawn?

def spawning (e : Entity) (b : Blueprint) : List Notice :=
  let healths := b.filterMap Kind.health.given
  let names := b.filterMap Kind.name.given
  match healths.getLast? with
  | some health =>
    List.replicate healths.length (.spawned e (names.getLast?.getD "<unnamed>") health)
  | none => []

theorem spawnsNote (f : Factory) (n : Notice) :
    (f.note n).spawns = f.spawns ++ (Entry.spawn? (.notice n)).toList :=
  readOffEntry Entry.spawn? f (f.note n) rfl

theorem spawnsTell (f : Factory) (c : Call) : (f.tell c).spawns = f.spawns :=
  (readOffEntry Entry.spawn? f (f.tell c) rfl).trans (List.append_nil _)

theorem spawnsQuiet (f : Factory) {n : Notice} (quiet : n.message ≠ "spawned with health") :
    (f.note n).spawns = f.spawns := by
  rw [spawnsNote, Entry.spawn?, if_neg quiet]
  exact List.append_nil _

/-! While records are offered nothing is reported. -/

theorem spawnsOffer (f : Factory) (e : Entity) (r : Record) :
    (f.offer e r).2.spawns = f.spawns := by
  unfold offer
  split
  · exact spawnsQuiet f (by simp [Notice.message])
  next s _ =>
    split
    · rfl
    next state _ =>
      have told := spawnsTell f (.create s e r)
      simp only
      split
      · exact (spawnsQuiet _ (by simp [Notice.message])).trans told
      · unfold Systems.storeNotices
        split
        · split
          · exact (spawnsQuiet _ (by simp [Notice.message])).trans told
          · exact told
        · exact told

theorem spawnsOfferAll (f : Factory) (e : Entity) (before : List Offer) (b : Blueprint) :
    (offerAll e before b f).2.spawns = f.spawns := by
  induction b generalizing f before with
  | nil => rfl
  | cons r b ih =>
    have first := spawnsOffer f e r
    rw [offerAll]
    generalize f.offer e r = made at first ⊢
    obtain ⟨answer, g⟩ := made
    cases answer <;> exact (ih g _).trans first

/-! Afterwards no state that is reported changes. -/

theorem spawnsAfter (f : Factory) (all : Systems) (e : Entity) (s : SystemId) :
    (f.noteAll (all.afterNotices e s)).spawns =
      f.spawns ++ if s = .healths then all.afterNotices e .healths else [] := by
  cases s with
  | healths =>
    simp only [if_true]
    unfold Systems.afterNotices
    simp only
    split
    · exact (List.append_nil _).symm
    · split
      · exact (List.append_nil _).symm
      · exact spawnsNote f _
  | _ => exact (List.append_nil _).symm

theorem afterAllKept (k : Kind) (f : Factory) (e : Entity) (taken : List Offer) :
    (taken.foldl (afterCreate e) f).systems.get? k.system = f.systems.get? k.system := by
  have stored : k.system ≠ .hierarchy := by cases k <;> simp
  rw [← (afterAllGrown f e taken).systems.states k.system stored, Systems.keptAfter]

theorem spawnsAfterAll (f : Factory) (e : Entity) (taken : List Offer) :
    let g := taken.foldl (afterCreate e) f
    g.spawns = f.spawns ++
      (taken.filter (·.1 = .healths)).flatMap fun _ => g.systems.afterNotices e .healths := by
  induction taken generalizing f with
  | nil => exact (List.append_nil _).symm
  | cons offer taken ih =>
    obtain ⟨s, r⟩ := offer
    intro g
    -- The call moves neither names nor healths, so what is reported now could be told at the end.
    have same : (f.systems.told (.afterCreate s e r)).afterNotices e .healths =
        g.systems.afterNotices e .healths := by
      refine Systems.afterNoticesAgree (fun k => ?_) e .healths
      rw [afterAllKept k f e]
      exact Systems.getUnmoved f.systems (Kind.toldAfter s k e r)
    have here : (f.afterCreate e (s, r)).spawns = f.spawns ++
        if s = .healths then g.systems.afterNotices e .healths else [] := by
      rw [← same, ← spawnsTell f (.afterCreate s e r)]
      exact spawnsAfter _ _ e s
    have later := ih (afterCreate e f (s, r))
    refine later.trans ?_
    rw [here, List.append_assoc]
    by_cases own : s = .healths <;> simp [own, g]

theorem flatMapGiven {α β γ : Type} (given : α → Option β) (xs : List α) (ys : List γ) :
    ((xs.filter fun x => (given x).isSome).flatMap fun _ => ys) =
      (xs.filterMap given).flatMap fun _ => ys := by
  induction xs with
  | nil => rfl
  | cons x xs ih => cases found : given x <;> simp [found, ih]

theorem dispatchSpawns {f : Factory} (routed : f.taker? Kind.health.tag = some .healths)
    (e : Entity) (b : Blueprint) :
    (f.dispatch e b).spawns = f.spawns ++ (b.filterMap Kind.health.given).flatMap fun _ =>
      (f.dispatch e b).systems.afterNotices e .healths := by
  have meant : Systems.Meant .health (f.offers b) := offersMeant (k := .health) routed b
  obtain ⟨taken, -⟩ := offerAllTaken f e [] b
  have given := takenOfGiven (k := .health) routed e b
  have quiet := spawnsOfferAll f e [] b
  rw [takenOf, taken, List.filterMap_map] at given
  unfold dispatch
  generalize offerAll e [] b f = offered at taken quiet ⊢
  obtain ⟨_, g⟩ := offered
  obtain rfl : _ = Systems.taken e (f.offers b) f.systems := taken
  change ((Systems.taken e (f.offers b) f.systems).filterMap fun o => Kind.health.given o.2) = _
    at given
  refine (spawnsAfterAll g e _).trans ?_
  rw [Systems.takenOwn (k := .health) e meant, flatMapGiven fun o : Offer => Kind.health.given o.2,
    given, quiet]

/-! Names and healths together. -/

abbrev reported : List Kind := [.name, .health]

section
variable {f : Factory} (routed : ∀ k ∈ reported, f.taker? k.tag = some k.system) {e : Entity}
  (clear : ∀ k ∈ reported, f.systems.valueOf k e = none)
include routed clear

theorem dispatchValue {k : Kind} (among : k ∈ reported) (b : Blueprint) :
    (f.dispatch e b).systems.valueOf k e = (b.filterMap k.given).getLast? := by
  have held : f.systems.contains k.system = true :=
    (Option.filter_eq_some_iff.mp (routed k among)).2
  obtain ⟨state, found⟩ := Option.isSome_iff_exists.mp held
  have empty : k.kept e state = none := by
    have clear := clear k among
    rwa [Systems.valueOf, found] at clear
  rw [Systems.valueOf, dispatchKept (routed k among), found]
  exact (Kind.keptKeepAll e k state _).trans (by rw [empty, Option.or_none])

theorem dispatchReports (labelled : f.systems.Labelled) (b : Blueprint) :
    (f.dispatch e b).spawns = f.spawns ++ spawning e b := by
  rw [dispatchSpawns (routed .health (by simp)), (dispatchLabelled labelled e b).afterNotices,
    dispatchValue routed clear (by simp), dispatchValue routed clear (by simp), spawning]
  cases last : (b.filterMap Kind.health.given).getLast? with
  | none =>
    rw [List.getLast?_eq_none_iff.mp last]
    rfl
  | some health =>
    refine congrArg (f.spawns ++ ·) ?_
    exact List.map_eq_flatMap.symm.trans List.map_const'

end

theorem spawningPayloads {b c : Blueprint} (same : ∀ k ∈ reported, b.payloads k = c.payloads k)
    (e : Entity) : spawning e b = spawning e c := by
  have given (k : Kind) (among : k ∈ reported) : b.filterMap k.given = c.filterMap k.given := by
    rw [Blueprint.givenPayloads, Blueprint.givenPayloads, same k among]
  have names := given .name (by simp)
  have healths := given .health (by simp)
  unfold spawning
  rw [names, healths]

/-- A factory that was started with names and healths attached, and asked of anything since, reports
of a new entity what its records give, each type read by itself. -/
theorem spawnsReported {f : Factory} (seated : f.Seated)
    (attached : ∀ k ∈ reported, k.system ∈ f.attached) {op : Op} (starts : op.starts = true)
    (later : List Op) :
    let g := (f.apply op).run later
    (∀ k ∈ reported, g.routes.get? k.tag = some k.system) →
      (∀ e, (∀ k ∈ reported, g.systems.valueOf k e = none) → ∀ b : Blueprint,
        (g.dispatch e b).spawns = g.spawns ++ spawning e b ∧
          ∀ c : Blueprint, (∀ k ∈ reported, b.payloads k = c.payloads k) →
            (g.dispatch e b).spawns = (g.dispatch e c).spawns) ∧
      ((∀ k ∈ reported, g.systems.valueOf k g.create.1 = none) → ∀ b : Blueprint,
        let made := g.createWithBlueprint b
        made.2.spawns = g.spawns ++ spawning made.1 b ∧
          ∀ c : Blueprint, (∀ k ∈ reported, b.payloads k = c.payloads k) →
            made.2.spawns = (g.createWithBlueprint c).2.spawns) := by
  intro g routes
  have started := seated.startLabels (attached .name (by simp)) (attached .health (by simp)) starts
  have moves : Moves f g := (Moves.apply f op).trans (.run _ later)
  obtain ⟨seats, labelled⟩ := KeepsLabels.run _ later ⟨(Moves.apply f op).seated seated, started⟩
  have routed : ∀ k ∈ reported, g.taker? k.tag = some k.system := fun k among =>
    seats.routedTo (moves.staysAttached (attached k among)) (routes k among)
  have reports {e : Entity} (clear : ∀ k ∈ reported, g.systems.valueOf k e = none)
      (b : Blueprint) : (g.dispatch e b).spawns = g.spawns ++ spawning e b :=
    dispatchReports routed clear labelled b
  have fresh (clear : ∀ k ∈ reported, g.systems.valueOf k g.create.1 = none) (b : Blueprint) :
      (g.createWithBlueprint b).2.spawns = g.spawns ++ spawning g.create.1 b :=
    dispatchReports (f := g.create.2) routed clear labelled b
  refine ⟨fun e clear b => ⟨reports clear b, fun c same => ?_⟩,
    fun clear b => ⟨fresh clear b, fun c same => ?_⟩⟩
  · rw [reports clear b, reports clear c, spawningPayloads same]
  · rw [fresh clear b, fresh clear c, spawningPayloads same]

theorem twoHealthsReported :
    let f := (initial {} (.memory {} 0)).run [.createSystem .names {}, .createSystem .healths {}]
    let g := (f.apply .start).run [.createWithBlueprint [.ofValue .name "cart"]]
    let full : Health := ⟨⟨0x40000000⟩, ⟨0x40000000⟩⟩
    let hurt : Record := .ofValue .health ⟨⟨0x3f800000⟩, ⟨0x40000000⟩⟩
    let dead : Record := .ofValue .health ⟨⟨0x3f800000⟩, ⟨0x80000000⟩⟩
    let broken : Record := ⟨Kind.name.tag, .owned [0xc1]⟩
    let light : Record := ⟨Tag.ofName "LightDef", .owned []⟩
    let b : Blueprint := [hurt, .ofValue .name "wheel", dead, light, .ofValue .health full,
      .ofValue .name "axle", broken]
    let c : Blueprint := [.ofValue .name "wheel", .ofValue .name "axle", broken, hurt, dead,
      .ofValue .health full, light]
    let reports : List Notice := [.spawned ⟨2⟩ "axle" full, .spawned ⟨2⟩ "axle" full]
    f.Seated ∧ (∀ k ∈ reported, k.system ∈ f.attached) ∧ Op.start.starts = true ∧
      (∀ k ∈ reported, g.routes.get? k.tag = some k.system) ∧
      (∀ k ∈ reported, g.systems.valueOf k g.create.1 = none) ∧
      (∀ k ∈ reported, b.payloads k = c.payloads k) ∧
      (g.createWithBlueprint b).2.spawns = g.spawns ++ reports ∧
      (g.createWithBlueprint c).2.spawns = g.spawns ++ reports := by
  intro f g full hurt dead broken light b c reports
  have seated : f.Seated := seatedRun _ _ _
  have attached : ∀ k ∈ reported, k.system ∈ f.attached := by
    rw [List.forall_mem_cons, List.forall_mem_singleton]
    decide +kernel
  have routed : ∀ k ∈ reported, g.routes.get? k.tag = some k.system := by
    rw [List.forall_mem_cons, List.forall_mem_singleton]
    decide +kernel
  have made : g.create.1 = ⟨2⟩ := by decide +kernel
  have clear : ∀ k ∈ reported, g.systems.valueOf k g.create.1 = none := by
    rw [List.forall_mem_cons, List.forall_mem_singleton, made]
    exact ⟨by decide +kernel, by decide +kernel⟩
  have same : ∀ k ∈ reported, b.payloads k = c.payloads k := by
    rw [List.forall_mem_cons, List.forall_mem_singleton]
    decide +kernel
  have names : b.filterMap Kind.name.given = ["wheel", "axle"] := by decide +kernel
  have healths : b.filterMap Kind.health.given =
      [⟨⟨0x3f800000⟩, ⟨0x40000000⟩⟩, full] := by decide +kernel
  have starts : Op.start.starts = true := rfl
  obtain ⟨told, others⟩ := (spawnsReported seated attached starts
    [.createWithBlueprint [.ofValue .name "cart"]] routed).2 clear b
  have own : (g.createWithBlueprint b).1 = ⟨2⟩ := made
  have expected : spawning ⟨2⟩ b = reports := by
    unfold spawning
    rw [names, healths]
    rfl
  rw [own, expected] at told
  exact ⟨seated, attached, starts, routed, clear, same, told, (others c same).symm.trans told⟩

end Factory
end EntityFoundry
