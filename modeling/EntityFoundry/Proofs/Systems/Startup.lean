import EntityFoundry.Systems.Startup
import Mathlib.Data.List.Induction
/-! The order systems start in, in closed form. Declarations are kept one system at a time, each in
the place where it was made first; and what is missing when systems start one after another can be
told from their order alone. -/
namespace EntityFoundry

section Lists
variable {α : Type} [DecidableEq α]

def enlist (xs : List α) (x : α) : List α := if x ∈ xs then xs else xs ++ [x]

theorem enlistPresent {xs ys : List α} (present : ∀ y ∈ ys, y ∈ xs) : ys.foldl enlist xs = xs := by
  induction ys with
  | nil => rfl
  | cons y ys ih =>
    have here : enlist xs y = xs := if_pos (present y (by simp))
    rw [List.foldl_cons, here]
    exact ih fun z member => present z (by simp [member])

theorem enlistPrefix (xs ys : List α) : xs <+: ys.foldl enlist xs := by
  induction ys generalizing xs with
  | nil => exact List.prefix_refl xs
  | cons y ys ih =>
    have first : xs <+: enlist xs y := by
      unfold enlist
      split
      · exact List.prefix_refl xs
      · exact List.prefix_append xs _
    exact first.trans (ih (enlist xs y))

theorem enlistAll (xs : List α) : xs.foldl enlist [] = xs.eraseDups := by
  induction xs using List.reverseRecOn with
  | nil => rfl
  | append_singleton xs x ih =>
    rw [List.foldl_append, ih, List.eraseDups_append, List.foldl_cons, List.foldl_nil, enlist]
    by_cases member : x ∈ xs
    · simp [member, List.removeAll]
    · simp [member, List.removeAll, List.eraseDups_cons]

theorem eraseDupsNodup (xs : List α) : xs.eraseDups.Nodup := by
  induction xs using List.reverseRecOn with
  | nil => exact List.nodup_nil
  | append_singleton xs x ih =>
    rw [← enlistAll, List.foldl_append, enlistAll, List.foldl_cons, List.foldl_nil, enlist]
    split
    · exact ih
    next absent =>
      refine List.nodup_append.mpr ⟨ih, by simp, fun y member z last same => ?_⟩
      rw [List.mem_singleton.mp last] at same
      exact absent (same ▸ member)

end Lists

namespace Startup
variable {κ : Type} [DecidableEq κ]

theorem dependenciesDeclare (st : Startup κ) (s t d : κ) :
    (st.declare t d).dependencies s =
      if t = s then enlist (st.dependencies s) d else st.dependencies s := by
  have listed : d ∈ st.dependencies s ↔ (s, d) ∈ st.declared := by
    simp [dependencies]
  unfold declare declares enlist
  by_cases same : t = s
  · subst same
    by_cases known : (t, d) ∈ st.declared
    · simp [known, listed]
    · rw [if_pos rfl, if_neg (listed.not.mpr known)]
      simp [known, dependencies, List.filter_append]
  · by_cases known : (t, d) ∈ st.declared
    · simp [known, same]
    · simp [known, same, dependencies, List.filter_append]

def declareAll (st : Startup κ) (ds : List (κ × κ)) : Startup κ :=
  ds.foldl (fun st d => st.declare d.1 d.2) st

theorem dependenciesDeclareAll (st : Startup κ) (ds : List (κ × κ)) (s : κ) :
    (st.declareAll ds).dependencies s =
      ((ds.filter (·.1 = s)).map (·.2)).foldl enlist (st.dependencies s) := by
  unfold declareAll
  induction ds generalizing st with
  | nil => rfl
  | cons d ds ih =>
    rw [List.foldl_cons, ih, dependenciesDeclare]
    by_cases same : d.1 = s
    · simp [same]
    · simp [same]

theorem declareAllRest (st : Startup κ) (ds : List (κ × κ)) :
    (st.declareAll ds).started = st.started ∧ (st.declareAll ds).violations = st.violations := by
  unfold declareAll
  induction ds generalizing st with
  | nil => exact ⟨rfl, rfl⟩
  | cons d ds ih =>
    obtain ⟨started, violations⟩ := ih (st.declare d.1 d.2)
    rw [List.foldl_cons, started, violations, declare]
    split <;> exact ⟨rfl, rfl⟩

def missedBy (order : List κ) (dependencies : κ → List κ) (s : κ) : List (κ × κ) :=
  ((dependencies s).filter (· ∉ order.takeWhile (· ≠ s))).map (s, ·)

theorem takeWhileBefore {before after : List κ} {s : κ} (absent : s ∉ before) :
    (before ++ s :: after).takeWhile (· ≠ s) = before := by
  have all : ∀ d ∈ before, decide (d ≠ s) = true := fun d member =>
    decide_eq_true fun same => absent (same ▸ member)
  rw [List.takeWhile_append_of_pos all, List.takeWhile_cons]
  simp

theorem startAll {order before : List κ} (unique : order.Nodup) (ss : List κ) (st : Startup κ)
    (split : order = before ++ ss) (started : st.started = before) :
    (ss.foldl start st).violations =
      st.violations ++ ss.flatMap (missedBy order st.dependencies) := by
  induction ss generalizing before st with
  | nil => exact (List.append_nil _).symm
  | cons s ss ih =>
    have absent : s ∉ before := by
      have apart := (List.nodup_append.mp (split ▸ unique)).2.2
      exact fun member => apart s member s (by simp) rfl
    have next : (st.start s).started = before ++ [s] := by
      simp [start, hasStarted, started, absent]
    have here : (st.start s).violations = st.violations ++ missedBy order st.dependencies s := by
      rw [missedBy, split, takeWhileBefore absent]
      simp [start, hasStarted, started]
    rw [List.foldl_cons, ih (st.start s) (by simp [split]) next, here, List.flatMap_cons,
      List.append_assoc]
    rfl

end Startup
end EntityFoundry
