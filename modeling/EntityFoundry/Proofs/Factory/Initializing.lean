import EntityFoundry.Proofs.Factory.Attaching
import Mathlib.Data.List.Nodup
/-! Starting a factory that was set up. The attached systems start in the order of their first
attachment, each once; and it is an error exactly where one of them declares a dependency that does
not come before it in that order. A start that fails leaves the adapters alone. -/
namespace EntityFoundry

theorem Registry.keysUpdate {κ : Type} [DecidableEq κ] {σ : κ → Type} (r : Registry κ σ) (k : κ)
    (change : σ k → σ k) : (r.update k change).keys = r.keys := by
  have replaced (v : σ k) (es : List ((k : κ) × σ k)) :
      (replace k v es).map (·.1) = es.map (·.1) := by
    induction es with
    | nil => rfl
    | cons e es ih =>
      unfold replace
      split
      next same => simp [same]
      next => simp [ih]
  unfold update
  cases r.get? k with
  | none => rfl
  | some v => exact replaced (change v) r.entries

namespace Systems

theorem keysTold (all : Systems) (c : Call) : (all.told c).keys = all.keys := by
  unfold told
  cases c.system? with
  | none => rfl
  | some s => exact Registry.keysUpdate all s _

def needs (all : Systems) (s : SystemId) : List SystemId := ((all.get? s).map s.needs).getD []

theorem declaredOnce {all : Systems} {as : List Held}
    (states : ∀ x ∈ as, all.get? x.1 = some x.2) (s : SystemId) :
    (((as.flatMap Held.declarations).filter (·.1 = s)).map (·.2)).foldl enlist [] =
      if s ∈ as.map (·.1) then (all.needs s).eraseDups else [] := by
  -- From the end: the last attachment of a system declares nothing that an earlier one did not.
  induction as using List.reverseRecOn with
  | nil => rfl
  | append_singleton as x ih =>
    obtain ⟨before, last⟩ := List.forall_mem_append.mp states
    have held : all.needs x.1 = x.1.needs x.2 := by
      rw [needs, last x (by simp)]
      rfl
    rw [List.flatMap_append, List.filter_append, List.map_append, List.foldl_append, ih before]
    by_cases same : x.1 = s
    · subst same
      have declared : ((([x].flatMap Held.declarations).filter (·.1 = x.1)).map (·.2)) =
          all.needs x.1 := by
        simp [Held.declarations, held, List.filter_map, Function.comp_def]
      have inside : x.1 ∈ (as ++ [x]).map (·.1) := by simp
      rw [declared, if_pos inside]
      by_cases known : x.1 ∈ as.map (·.1)
      · rw [if_pos known]
        exact enlistPresent fun d member => List.mem_eraseDups.mpr member
      · rw [if_neg known, enlistAll]
    · have foreign : (([x].flatMap Held.declarations).filter (·.1 = s)) = [] := by
        simp [Held.declarations, same]
      have inside : s ∈ (as ++ [x]).map (·.1) ↔ s ∈ as.map (·.1) := by
        rw [List.map_append, List.mem_append]
        exact or_iff_left fun last => same (List.mem_singleton.mp last).symm
      simp only [foreign, inside]
      rfl

end Systems

namespace Factory

structure Started (ss : List SystemId) (f g : Factory) : Prop where
  systems : g.systems = (ss.map (.start · f.systems.keys)).foldl Systems.told f.systems
  startup : g.startup = ss.foldl Startup.start f.startup
  calls : g.calls = f.calls ++ ss.map (.start · f.systems.keys)
  rest : g = { f with systems := g.systems, startup := g.startup, journal := g.journal }

theorem startedAll (ss : List SystemId) (f : Factory) : Started ss f (ss.foldl startSystem f) := by
  induction ss generalizing f with
  | nil => exact ⟨rfl, rfl, (List.append_nil _).symm, rfl⟩
  | cons s ss ih =>
    have later := ih (f.startSystem s)
    have keys : (f.startSystem s).systems.keys = f.systems.keys := Systems.keysTold _ _
    have called : (f.startSystem s).calls = f.calls ++ [.start s f.systems.keys] := callsTell f _
    refine ⟨?_, later.startup, ?_, later.rest⟩
    · rw [List.foldl_cons, later.systems, keys]
      rfl
    · rw [List.foldl_cons, later.calls, keys, called]
      exact List.append_assoc _ _ _

theorem started (f : Factory) : Started f.attached f f.start.2 := by
  obtain ⟨systems, startup, calls, rest⟩ := startedAll f.attached f
  have noted (n : Notice) : Started f.attached f ((f.attached.foldl startSystem f).note n) :=
    ⟨systems, startup, (callsNote _ n).trans calls,
      congrArg (fun g : Factory => { g with journal := .notice n :: g.journal }) rest⟩
  unfold start
  cases checked : (f.attached.foldl startSystem f).startup.check with
  | error violations =>
    simp only [checked]
    exact noted _
  | ok =>
    simp only [checked]
    exact noted _

theorem startAnswers (f : Factory) :
    let violations := (f.attached.foldl Startup.start f.startup).violations
    f.start.1 = if violations = [] then .ok () else .error (.dependencies violations) := by
  intro violations
  have all := (startedAll f.attached f).startup
  unfold start Startup.check
  simp only [all]
  by_cases none : violations = []
  · simp [violations, none]
  · simp [violations, none]

theorem startRefused {f : Factory} {error : FactoryError} (refused : f.start.1 = .error error)
    (schema : Schema) (names : List String) :
    f.startWithNames names = (.error error, f.start.2) ∧
      f.startSchema schema names = (.error error, f.start.2) := by
  unfold startSchema startWithNames
  generalize f.start = made at refused ⊢
  obtain ⟨result, g⟩ := made
  cases refused
  exact ⟨rfl, rfl⟩

/-! The order of attachment. -/

theorem Unattached.dependencies {f g : Factory} (new : f.Unattached) {as : List Held}
    {rs : List (Tag × SystemId)} (setUp : SetUp f g as rs (as.flatMap Held.declarations))
    {s : SystemId} (attached : s ∈ as.map (·.1)) :
    g.startup.dependencies s = (g.systems.needs s).eraseDups := by
  rw [setUp.startup, Startup.dependenciesDeclareAll, new.startup]
  exact (Systems.declaredOnce setUp.states s).trans (if_pos attached)

def missed (g : Factory) (order : List SystemId) : List (SystemId × SystemId) :=
  order.flatMap (Startup.missedBy order fun s => (g.systems.needs s).eraseDups)

theorem memMissed {g : Factory} {order : List SystemId} (s d : SystemId) :
    (s, d) ∈ g.missed order ↔
      s ∈ order ∧ d ∈ g.systems.needs s ∧ d ∉ order.takeWhile (· ≠ s) := by
  simp [missed, Startup.missedBy, List.mem_eraseDups]

theorem missedNodup {g : Factory} {order : List SystemId} (unique : order.Nodup) :
    (g.missed order).Nodup := by
  refine List.nodup_flatMap.mpr ⟨fun s _ => ?_, unique.imp fun {s t} different => ?_⟩
  · exact ((eraseDupsNodup _).filter _).map fun _ _ same => congrArg Prod.snd same
  · intro p inS inT
    obtain ⟨d, -, rfl⟩ := List.mem_map.mp inS
    obtain ⟨e, -, same⟩ := List.mem_map.mp inT
    exact different (congrArg Prod.fst same).symm

theorem Unattached.violations {f g : Factory} (new : f.Unattached) {as : List Held}
    {rs : List (Tag × SystemId)} (setUp : SetUp f g as rs (as.flatMap Held.declarations)) :
    (g.attached.foldl Startup.start g.startup).violations = g.missed g.attached := by
  have table : g.attached = (as.map (·.1)).eraseDups := by
    rw [setUp.table, new.attached, enlistAll]
  obtain ⟨started, violations⟩ := Startup.declareAllRest f.startup (as.flatMap Held.declarations)
  rw [← setUp.startup, new.startup] at started violations
  have unique : g.attached.Nodup := table ▸ eraseDupsNodup _
  rw [Startup.startAll unique g.attached g.startup rfl started, violations]
  refine List.flatMap_congr fun s member => ?_
  have attached : s ∈ as.map (·.1) := List.mem_eraseDups.mp (table ▸ member)
  unfold Startup.missedBy
  rw [new.dependencies setUp attached]

theorem startJudgesOrder {f : Factory} (new : f.Unattached) {ops : List Op}
    (setUp : ∀ op ∈ ops, op.setsUp = true) :
    let g := f.run ops
    let order := ((attachments ops f).map (·.1)).eraseDups
    let calls := order.map (.start · g.systems.keys)
    g.attached = order ∧ order.Nodup ∧
      g.start.2.calls = f.calls ++ calls ∧ g.start.2.systems = calls.foldl Systems.told g.systems ∧
      (g.start.1 = .ok () ↔
        ∀ s ∈ order, ∀ d ∈ g.systems.needs s, d ∈ order.takeWhile (· ≠ s)) ∧
      (g.start.1 ≠ .ok () → g.start.1 = .error (.dependencies (g.missed order))) ∧
      (g.missed order).Nodup ∧
      (∀ s d, (s, d) ∈ g.missed order ↔
        s ∈ order ∧ d ∈ g.systems.needs s ∧ d ∉ order.takeWhile (· ≠ s)) ∧
      ∀ e, g.start.1 = .error e → ∀ schema names,
        ∀ made ∈ [g.startWithNames names, g.startSchema schema names],
          made.1 = .error e ∧ made.2.types = g.types ∧ made.2.loader = g.loader ∧
            made.2.finalizer = g.finalizer := by
  intro g order calls
  have run : SetUp f g (attachments ops f) (registrations ops f)
    ((attachments ops f).flatMap Held.declarations) := .run new.seated setUp
  have table : g.attached = order := by rw [run.table, new.attached, enlistAll]
  have unique : order.Nodup := eraseDupsNodup _
  have started := Factory.started g
  have violations := new.violations run
  have answer := startAnswers g
  simp only [violations] at answer
  rw [table] at started answer
  have met : g.missed order = [] ↔
      ∀ s ∈ order, ∀ d ∈ g.systems.needs s, d ∈ order.takeWhile (· ≠ s) := by
    refine ⟨fun none s inside d needed => ?_, fun all => ?_⟩
    · by_contra late
      have missing := (memMissed s d).mpr ⟨inside, needed, late⟩
      rw [none] at missing
      cases missing
    · refine List.eq_nil_iff_forall_not_mem.mpr fun (s, d) missing => ?_
      obtain ⟨inside, needed, late⟩ := (memMissed s d).mp missing
      exact late (all s inside d needed)
  refine ⟨table, unique, run.calls ▸ started.calls, started.systems, ?_, ?_, missedNodup unique,
    memMissed, fun e refused schema names => ?_⟩
  · rw [← met, answer]
    split
    next none => exact ⟨fun _ => none, fun _ => rfl⟩
    next some => exact ⟨fun same => (nomatch same), fun none => (some none).elim⟩
  · rw [answer]
    split
    next => exact fun differs => (differs rfl).elim
    next => exact fun _ => rfl
  · obtain ⟨named, schematic⟩ := startRefused refused schema names
    rw [named, schematic, started.rest]
    simp

theorem startJudgesTwiceAttached :
    let render : Probe := { needs := [.transforms, .probe "audio", .transforms, .probe "render"] }
    let f := initial {} (.memory {} 0)
    let ops : List Op :=
      [.registerSystem (.probe "audio") {}, .createSystem (.probe "render") render,
        .createSystem .transforms {}, .attachRegistered (.probe "render"),
        .attachRegistered (.probe "audio"), .createSystem .healths {},
        .attachRegistered .transforms, .attachRegistered .plain]
    let g := f.run ops
    let order := ((attachments ops f).map (·.1)).eraseDups
    let violations : List (SystemId × SystemId) :=
      [(.probe "render", .transforms), (.probe "render", .probe "audio"),
        (.probe "render", .probe "render"), (.healths, .names)]
    f.Unattached ∧ (∀ op ∈ ops, op.setsUp = true) ∧
      order = [.probe "render", .transforms, .probe "audio", .healths] ∧
      g.missed order = violations ∧ g.start.1 = .error (.dependencies violations) ∧
      g.start.2.calls = f.calls ++ order.map (.start · g.systems.keys) ∧
      ∀ schema names, ∀ made ∈ [g.startWithNames names, g.startSchema schema names],
        made.1 = .error (.dependencies violations) ∧ made.2.types = g.types ∧
          made.2.loader = g.loader ∧ made.2.finalizer = g.finalizer := by
  intro render f ops g order violations
  have new : f.Unattached := ⟨rfl, rfl, rfl, rfl⟩
  have setUp : ∀ op ∈ ops, op.setsUp = true := by decide +kernel
  have ordered : order = [.probe "render", .transforms, .probe "audio", .healths] := by
    decide +kernel
  have missing : g.missed order = violations := by decide +kernel
  obtain ⟨-, -, calls, -, met, refused, -, -, kept⟩ := startJudgesOrder new setUp
  have differs : g.start.1 ≠ .ok () := fun fine => by
    have early := met.mp fine (.probe "render") (by decide +kernel) .transforms (by decide +kernel)
    exact absurd early (by decide +kernel)
  have judged : g.start.1 = .error (.dependencies violations) := by rw [refused differs, missing]
  exact ⟨new, setUp, ordered, missing, judged, calls, kept _ judged⟩

end Factory
end EntityFoundry
