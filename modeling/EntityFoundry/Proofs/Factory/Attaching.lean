import EntityFoundry.Proofs.Factory.Calls
import EntityFoundry.Proofs.Factory.Invariants
import EntityFoundry.Proofs.Systems.Startup
/-! Setting a factory up: systems are registered, attached and routed to, in any order and as often
as one likes. The history of this is told from the registry alone: which system was attached when,
in the state it was held in, and which types were registered for which system. What the factory
keeps is that history, each system in the place of its first attachment, each dependency in that of
its first declaration and each type with its latest registration. -/
namespace EntityFoundry

namespace Registry
variable {κ : Type} [DecidableEq κ] {σ : κ → Type} {r q : Registry κ σ} {k : κ} {v : σ k}

theorem getLonger (longer : r.entries <+: q.entries) (found : r.get? k = some v) :
    q.get? k = some v := by
  obtain ⟨more, all⟩ := longer
  unfold get? at found ⊢
  rw [← all, findAppend, found, Option.some_or]

theorem entriesCreated (created : r.create? k v = some q) :
    r.contains k = false ∧ q.entries = r.entries ++ [⟨k, v⟩] := by
  unfold create? at created
  split at created
  · cases created
  next free =>
    cases created
    exact ⟨Bool.eq_false_iff.mpr free, rfl⟩

end Registry

abbrev Held := (s : SystemId) × s.State

namespace Held

def registrations (x : Held) : List (Tag × SystemId) := (x.1.tags x.2).map (·, x.1)

def declarations (x : Held) : List (SystemId × SystemId) := (x.1.needs x.2).map (x.1, ·)

end Held

namespace Factory

def Op.setsUp : Op → Bool
  | .registerSystem .. | .createSystem .. | .attachRegistered _ | .registerTag .. => true
  | _ => false

def Op.attaches (all : Systems) : Op → List Held
  | .createSystem s p => if all.contains s then [] else [⟨s, s.fresh p⟩]
  | .attachRegistered s => ((all.get? s).map (⟨s, ·⟩)).toList
  | _ => []

def Op.registers (all : Systems) : Op → List (Tag × SystemId)
  | .registerTag s tag => [(tag, s)]
  | op => (op.attaches all).flatMap Held.registrations

def attachments (ops : List Op) (f : Factory) : List Held :=
  logged (fun f op => op.attaches f.systems) ops f

def registrations (ops : List Op) (f : Factory) : List (Tag × SystemId) :=
  logged (fun f op => op.registers f.systems) ops f

structure Unattached (f : Factory) : Prop where
  attached : f.attached = []
  positions : f.positions = {}
  routes : f.routes = {}
  startup : f.startup = {}

theorem Unattached.seated {f : Factory} (new : f.Unattached) : f.Seated := by
  refine ⟨fun s i => ?_, fun s member => ?_⟩
  · rw [new.positions, new.attached]
    exact ⟨fun found => (nomatch found), fun found => (nomatch found)⟩
  · rw [new.attached] at member
    cases member

theorem Seated.placed {f : Factory} (seated : f.Seated) (s : SystemId) :
    f.positions.contains s = true ↔ s ∈ f.attached := by
  rw [Dict.contains, Option.isSome_iff_exists, List.mem_iff_getElem?]
  exact exists_congr fun i => seated.seats s i

theorem Seated.unplaced {f : Factory} (seated : f.Seated) {s : SystemId}
    (free : f.positions.get? s = none) : s ∉ f.attached := by
  rw [← seated.placed, Dict.contains, free]
  exact Bool.false_ne_true

structure SetUp (f g : Factory) (attached : List Held) (registered : List (Tag × SystemId))
    (declared : List (SystemId × SystemId)) : Prop where
  seated : g.Seated
  table : g.attached = (attached.map (·.1)).foldl enlist f.attached
  routes : g.routes = registered.foldl (fun routes r => routes.insert r.1 r.2) f.routes
  startup : g.startup = f.startup.declareAll declared
  entries : f.systems.entries <+: g.systems.entries
  states : ∀ x ∈ attached, g.systems.get? x.1 = some x.2
  calls : g.calls = f.calls
  rest : g = { f with
    systems := g.systems, attached := g.attached, positions := g.positions, routes := g.routes
    startup := g.startup, journal := g.journal }

namespace SetUp
variable {f g h : Factory} {as bs : List Held} {rs qs : List (Tag × SystemId)}
  {ds es : List (SystemId × SystemId)}

theorem held (setUp : SetUp f g as rs ds) {s : SystemId} {state : s.State}
    (found : f.systems.get? s = some state) : g.systems.get? s = some state :=
  Registry.getLonger setUp.entries found

theorem adjusted (seated : f.Seated) {routes : Dict Tag SystemId} {startup : Startup SystemId}
    (registered : routes = rs.foldl (fun routes r => routes.insert r.1 r.2) f.routes)
    (declared : startup = f.startup.declareAll ds) :
    SetUp f { f with routes := routes, startup := startup } [] rs ds :=
  ⟨seated.keep rfl rfl fun _ held => held, rfl, registered, declared, List.prefix_refl _,
    List.forall_mem_nil _, rfl, rfl⟩

theorem refl (seated : f.Seated) : SetUp f f [] [] [] := adjusted seated rfl rfl

theorem trans (first : SetUp f g as rs ds) (second : SetUp g h bs qs es) :
    SetUp f h (as ++ bs) (rs ++ qs) (ds ++ es) where
  seated := second.seated
  table := by rw [second.table, first.table, List.map_append, List.foldl_append]
  routes := by rw [second.routes, first.routes, List.foldl_append]
  startup := by
    rw [second.startup, first.startup]
    exact List.foldl_append.symm
  entries := first.entries.trans second.entries
  states := List.forall_mem_append.mpr
    ⟨fun x member => second.held (first.states x member), second.states⟩
  calls := second.calls.trans first.calls
  rest := second.rest.trans (congrArg
    (fun k => { k with
      systems := h.systems, attached := h.attached, positions := h.positions, routes := h.routes
      startup := h.startup, journal := h.journal }) first.rest)

theorem note (seated : f.Seated) (n : Notice) : SetUp f (f.note n) [] [] [] :=
  ⟨seated.keep rfl rfl fun _ held => held, rfl, rfl, rfl, List.prefix_refl _,
    List.forall_mem_nil _, callsNote f n, rfl⟩

theorem noted (setUp : SetUp f g as rs ds) (n : Notice) : SetUp f (g.note n) as rs ds := by
  have both := setUp.trans (note setUp.seated n)
  rwa [List.append_nil, List.append_nil, List.append_nil] at both

/-! Operations. -/

theorem created {systems : Systems} {s : SystemId} {state : s.State} (seated : f.Seated)
    (new : f.systems.create? s state = some systems) :
    SetUp f { f with systems := systems } [] [] [] := by
  have longer : f.systems.entries <+: systems.entries :=
    (Registry.entriesCreated new).2 ▸ List.prefix_append _ _
  refine ⟨seated.keep rfl rfl fun t held => ?_, rfl, rfl, rfl, longer, List.forall_mem_nil _, rfl,
    rfl⟩
  obtain ⟨before, found⟩ := Option.isSome_iff_exists.mp held
  exact Option.isSome_iff_exists.mpr ⟨before, Registry.getLonger longer found⟩

theorem registerTag (seated : f.Seated) (s : SystemId) (tag : Tag) :
    SetUp f (f.registerTag s tag) [] [(tag, s)] [] := by
  have routed : SetUp f { f with routes := f.routes.insert tag s } [] [(tag, s)] [] :=
    adjusted seated rfl rfl
  unfold Factory.registerTag
  cases f.routes.get? tag with
  | none => exact routed
  | some previous =>
    by_cases same : previous = s
    · simpa [same] using routed
    · simpa [same] using routed.noted (.tagReassigned tag previous s)

theorem declareDependency (seated : f.Seated) (s d : SystemId) :
    SetUp f (f.declareDependency s d) [] [] [(s, d)] := by
  unfold Factory.declareDependency
  split
  next known =>
    have same : f.startup.declare s d = f.startup := if_pos known
    exact adjusted seated rfl same.symm
  next =>
    have declared : SetUp f { f with startup := f.startup.declare s d } [] [] [(s, d)] :=
      adjusted seated rfl rfl
    exact declared.noted _

theorem registerTags (seated : f.Seated) (s : SystemId) (tags : List Tag) :
    SetUp f (tags.foldl (·.registerTag s) f) [] (tags.map (·, s)) [] := by
  induction tags generalizing f with
  | nil => exact .refl seated
  | cons tag tags ih =>
    have first := registerTag seated s tag
    exact first.trans (ih first.seated)

theorem declareDependencies (seated : f.Seated) (s : SystemId) (needs : List SystemId) :
    SetUp f (needs.foldl (·.declareDependency s) f) [] [] (needs.map (s, ·)) := by
  induction needs generalizing f with
  | nil => exact .refl seated
  | cons d needs ih =>
    have first := declareDependency seated s d
    exact first.trans (ih first.seated)

theorem place (seated : f.Seated) {s : SystemId} {state : s.State}
    (held : f.systems.get? s = some state) : SetUp f (f.place s) [⟨s, state⟩] [] [] := by
  have after := seated.place (Option.isSome_iff_exists.mpr ⟨state, held⟩)
  have states : ∀ x ∈ [(⟨s, state⟩ : Held)], f.systems.get? x.1 = some x.2 :=
    List.forall_mem_singleton.mpr held
  unfold Factory.place at after ⊢
  by_cases known : f.positions.contains s = true
  · simp only [known, if_true] at after ⊢
    have member := (seated.placed s).mp known
    exact ⟨after, (if_pos member).symm, rfl, rfl, List.prefix_refl _, states, rfl, rfl⟩
  · simp only [known] at after ⊢
    have absent := (seated.placed s).not.mp known
    exact ⟨after, (if_neg absent).symm, rfl, rfl, List.prefix_refl _, states, rfl, rfl⟩

theorem attachSystem (seated : f.Seated) {s : SystemId} (state : s.State)
    (held : f.systems.get? s = some state) :
    SetUp f (f.attachSystem s state) [⟨s, state⟩] (Held.registrations ⟨s, state⟩)
      (Held.declarations ⟨s, state⟩) := by
  have routed := registerTags seated s (s.tags state)
  have declared := routed.trans (declareDependencies routed.seated s (s.needs state))
  have found := declared.held held
  have placed := (declared.trans (place declared.seated found)).noted (.systemAttached s)
  simp only [List.append_nil, List.nil_append] at placed
  exact placed

theorem createSystem (seated : f.Seated) {systems : Systems} {s : SystemId} {state : s.State}
    (new : f.systems.create? s state = some systems) :
    SetUp { f with systems := systems } (f.createSystem s state).2 [⟨s, state⟩]
      (Held.registrations ⟨s, state⟩) (Held.declarations ⟨s, state⟩) := by
  have absent : f.systems.get? s = none := by
    simpa [Registry.contains] using (Registry.entriesCreated new).1
  have found : systems.get? s = some state := by
    simp [Registry.getCreated new, absent, Registry.find]
  have registered := note (created seated new).seated (.registered s)
  have attached := registered.trans (attachSystem registered.seated state found)
  unfold Factory.createSystem registerSystem
  simp only [new]
  exact attached

theorem apply (seated : f.Seated) {op : Op} (setsUp : op.setsUp = true) :
    SetUp f (f.apply op) (op.attaches f.systems) (op.registers f.systems)
      ((op.attaches f.systems).flatMap Held.declarations) := by
  cases op with
  | registerSystem s p =>
    simp only [Factory.apply, registerSystem]
    cases new : f.systems.create? s (s.fresh p) with
    | none => exact .refl seated
    | some systems => exact (created seated new).noted _
  | createSystem s p =>
    simp only [Factory.apply, Op.registers, Op.attaches]
    cases new : f.systems.create? s (s.fresh p) with
    | none =>
      have holds : f.systems.contains s = true := by simpa [Registry.create?] using new
      have refused := note seated (.systemRefused (.alreadyRegistered s))
      simpa [Factory.createSystem, registerSystem, new, holds] using refused
    | some systems =>
      have free := (Registry.entriesCreated new).1
      simpa [free] using (created seated new).trans (createSystem seated new)
  | attachRegistered s =>
    simp only [Factory.apply, attachRegistered, Op.registers, Op.attaches]
    cases held : f.systems.get? s with
    | none => exact note seated _
    | some state => simpa using attachSystem seated state held
  | registerTag s tag => exact registerTag seated s tag
  | _ => cases setsUp

theorem run (seated : f.Seated) {ops : List Op} (setUp : ∀ op ∈ ops, op.setsUp = true) :
    SetUp f (f.run ops) (attachments ops f) (registrations ops f)
      ((attachments ops f).flatMap Held.declarations) := by
  induction ops generalizing f with
  | nil => exact .refl seated
  | cons op ops ih =>
    obtain ⟨first, later⟩ := List.forall_mem_cons.mp setUp
    have here := apply seated first
    have whole := here.trans (ih here.seated later)
    rw [← List.flatMap_append] at whole
    exact whole

end SetUp

end Factory
end EntityFoundry
