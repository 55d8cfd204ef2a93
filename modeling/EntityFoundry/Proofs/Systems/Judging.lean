import EntityFoundry.Proofs.Systems.Startup
import EntityFoundry.Systems.Id
import Mathlib.Data.List.Basic
/-! The judgement on any history of declarations and starts. A start is at fault for what its system
had declared by then and what had not started by then. No event takes a fault back, whatever is
declared or started after it. -/
namespace EntityFoundry.Startup

inductive Event (κ : Type)
  | declared (system dependency : κ)
  | started (system : κ)
  deriving DecidableEq, Repr

variable {κ : Type} [DecidableEq κ]

def Event.need? (s : κ) : Event κ → Option κ
  | .declared t d => if t = s then some d else none
  | .started _ => none

def hear (st : Startup κ) : Event κ → Startup κ
  | .declared s d => st.declare s d
  | .started s => st.start s

def heard (es : List (Event κ)) : Startup κ := es.foldl hear {}

def needed (es : List (Event κ)) (s : κ) : List κ := (es.filterMap (Event.need? s)).eraseDups

def faults (before : List (Event κ)) : Event κ → List (κ × κ)
  | .declared _ _ => []
  | .started s => ((needed before s).filter fun d => .started d ∉ before).map (s, ·)

def allFaults (es : List (Event κ)) : List (κ × κ) :=
  es.zipIdx.flatMap fun (e, i) => faults (es.take i) e

theorem memNeeded {es : List (Event κ)} {s d : κ} : d ∈ needed es s ↔ .declared s d ∈ es := by
  rw [needed, List.mem_eraseDups, List.mem_filterMap]
  constructor
  · rintro ⟨e, member, found⟩
    cases e with
    | declared t c =>
      simp only [Event.need?, Option.ite_none_right_eq_some, Option.some.injEq] at found
      obtain ⟨rfl, rfl⟩ := found
      exact member
    | started t => cases found
  · exact fun member => ⟨_, member, if_pos rfl⟩

/-! What is kept of a history: an event more, then the whole of it. -/

theorem heardNext (es : List (Event κ)) (e : Event κ) : heard (es ++ [e]) = (heard es).hear e := by
  rw [heard, List.foldl_append]
  rfl

theorem startedHeard (es : List (Event κ)) (s : κ) :
    (heard es).hasStarted s = decide (.started s ∈ es) := by
  induction es using List.reverseRecOn with
  | nil => rfl
  | append_singleton es e ih =>
    rw [heardNext]
    cases e with
    | declared t d =>
      have same : ((heard es).declare t d).started = (heard es).started :=
        (declareAllRest (heard es) [(t, d)]).1
      simp only [hear, hasStarted, same] at ih ⊢
      simp [ih]
    | started t =>
      have members : s ∈ ((heard es).start t).started ↔ s ∈ (heard es).started ∨ s = t := by
        unfold start hasStarted
        by_cases known : t ∈ (heard es).started
        · simp only [known, decide_true, if_true]
          exact ⟨.inl, fun either => either.elim id fun same => same ▸ known⟩
        · simp [known]
      simp only [hear, hasStarted, decide_eq_decide] at ih ⊢
      simp [members, ih]

theorem dependenciesHeard (es : List (Event κ)) (s : κ) :
    (heard es).dependencies s = needed es s := by
  unfold needed
  rw [← enlistAll]
  induction es using List.reverseRecOn with
  | nil => rfl
  | append_singleton es e ih =>
    rw [heardNext, List.filterMap_append, List.foldl_append, ← ih]
    cases e with
    | declared t d =>
      rw [hear, dependenciesDeclare]
      by_cases same : t = s
      · simp [Event.need?, same]
      · simp [Event.need?, same]
    | started t => rfl

theorem allFaultsNext (es : List (Event κ)) (e : Event κ) :
    allFaults (es ++ [e]) = allFaults es ++ faults es e := by
  have earlier : es.zipIdx.flatMap (fun (d, i) => faults ((es ++ [e]).take i) d) =
      allFaults es := by
    refine List.flatMap_congr fun (d, i) member => ?_
    have inside := List.snd_lt_of_mem_zipIdx member
    exact congrArg (faults · d) (List.take_append_of_le_length (Nat.le_of_lt inside))
  rw [allFaults, List.zipIdx_append, List.flatMap_append, earlier]
  simp

theorem violationsHeard (es : List (Event κ)) : (heard es).violations = allFaults es := by
  induction es using List.reverseRecOn with
  | nil => rfl
  | append_singleton es e ih =>
    rw [heardNext, allFaultsNext, ← ih]
    cases e with
    | declared t d =>
      have same : ((heard es).declare t d).violations = (heard es).violations :=
        (declareAllRest (heard es) [(t, d)]).2
      rw [hear, same, faults, List.append_nil]
    | started t => simp [hear, start, faults, dependenciesHeard, startedHeard]

theorem allFaultsPrefix (es more : List (Event κ)) : allFaults es <+: allFaults (es ++ more) := by
  induction more using List.reverseRecOn with
  | nil => simp
  | append_singleton more e ih =>
    rw [← List.append_assoc, allFaultsNext]
    exact ih.trans (List.prefix_append _ _)

theorem memAllFaults {es : List (Event κ)} {s d : κ} :
    (s, d) ∈ allFaults es ↔ ∃ before after, es = before ++ .started s :: after ∧
      .declared s d ∈ before ∧ .started d ∉ before := by
  induction es using List.reverseRecOn with
  | nil => simp [allFaults]
  | append_singleton es e ih =>
    have here : (s, d) ∈ faults es e ↔
        e = .started s ∧ .declared s d ∈ es ∧ .started d ∉ es := by
      cases e with
      | declared t c => simp [faults]
      | started t =>
        simp only [faults, List.mem_map, List.mem_filter, memNeeded, decide_eq_true_eq,
          Prod.mk.injEq, Event.started.injEq]
        constructor
        · rintro ⟨c, needs, rfl, rfl⟩
          exact ⟨rfl, needs⟩
        · rintro ⟨rfl, needs⟩
          exact ⟨d, needs, rfl, rfl⟩
    rw [allFaultsNext, List.mem_append, ih, here]
    constructor
    · rintro (⟨before, after, rfl, needs⟩ | ⟨rfl, needs⟩)
      · exact ⟨before, after ++ [e], by simp, needs⟩
      · exact ⟨es, [], rfl, needs⟩
    · rintro ⟨before, after, split, needs⟩
      rcases List.eq_nil_or_concat after with rfl | ⟨between, last, rfl⟩
      · obtain ⟨rfl, same⟩ := List.append_inj' split rfl
        exact .inr ⟨(List.cons.inj same).1, needs⟩
      · refine .inl ⟨before, between, ?_, needs⟩
        rw [List.concat_eq_append, ← List.cons_append, ← List.append_assoc] at split
        exact (List.append_inj' split rfl).1

theorem checkHeard (es : List (Event κ)) :
    (heard es).check = if allFaults es = [] then .ok () else .error (allFaults es) := by
  unfold check
  rw [violationsHeard]
  simp

theorem historyJudged (es : List (Event κ)) :
    ((heard es).check = .ok () ↔ ∀ before s after, es = before ++ .started s :: after →
      ∀ d, .declared s d ∈ before → .started d ∈ before) ∧
    ((heard es).check ≠ .ok () → (heard es).check = .error (allFaults es)) ∧
    ∀ more vs, (heard es).check = .error vs →
      ∃ later, (heard (es ++ more)).check = .error (vs ++ later) := by
  have met : allFaults es = [] ↔ ∀ before s after, es = before ++ .started s :: after →
      ∀ d, .declared s d ∈ before → .started d ∈ before := by
    refine ⟨fun none before s after split d declared => ?_, fun all => ?_⟩
    · by_contra late
      have fault := memAllFaults.mpr ⟨before, after, split, declared, late⟩
      rw [none] at fault
      cases fault
    · refine List.eq_nil_iff_forall_not_mem.mpr fun (s, d) fault => ?_
      obtain ⟨before, after, split, declared, late⟩ := memAllFaults.mp fault
      exact late (all before s after split d declared)
  rw [← met, checkHeard]
  refine ⟨?_, ?_, fun more vs refused => ?_⟩
  · split
    next none => exact ⟨fun _ => none, fun _ => rfl⟩
    next some => exact ⟨fun same => (nomatch same), fun none => (some none).elim⟩
  · split
    next => exact fun differs => (differs rfl).elim
    next => exact fun _ => rfl
  · split at refused
    next => cases refused
    next some =>
      cases refused
      obtain ⟨later, all⟩ := allFaultsPrefix es more
      have still : allFaults (es ++ more) ≠ [] := fun none => by
        rw [← all] at none
        exact some (List.append_eq_nil_iff.mp none).1
      exact ⟨later, by rw [checkHeard, if_neg still, all]⟩

theorem lateAndCyclicJudged :
    let es : List (Event SystemId) :=
      [.declared .healths .names, .declared .healths .transforms, .declared .healths .names,
        .started .healths, .started .names, .declared .healths .hierarchy, .started .healths,
        .declared .plain .plain, .started .plain, .started .plain,
        .declared .transforms .hierarchy, .declared .hierarchy .transforms, .started .transforms,
        .started .hierarchy]
    let vs : List (SystemId × SystemId) :=
      [(.healths, .names), (.healths, .transforms), (.healths, .transforms),
        (.healths, .hierarchy), (.plain, .plain), (.transforms, .hierarchy)]
    (heard es).check = .error vs ∧
      ∀ more, ∃ later, (heard (es ++ more)).check = .error (vs ++ later) := by
  intro es vs
  obtain ⟨met, refused, kept⟩ := historyJudged es
  have differs : (heard es).check ≠ .ok () := fun fine =>
    absurd (met.mp fine (es.take 3) .healths (es.drop 4) rfl .names (by decide)) (by decide)
  have told : allFaults es = vs := by decide
  have judged : (heard es).check = .error vs := (refused differs).trans (congrArg _ told)
  exact ⟨judged, fun more => kept more vs judged⟩

end EntityFoundry.Startup
