import EntityFoundry.Systems.Basic
/-! What a call leaves as it was. It reaches one system at most; no system comes or goes by it, and
a system from outside changes in nothing but what it remembers. -/
namespace EntityFoundry

namespace Registry
variable {κ : Type} [DecidableEq κ] {σ : κ → Type}

theorem memOfFind {k : κ} {v : σ k} {es : List ((k : κ) × σ k)} (found : find k es = some v) :
    ⟨k, v⟩ ∈ es := by
  induction es with
  | nil => cases found
  | cons e es ih =>
    obtain ⟨j, w⟩ := e
    by_cases same : j = k
    · subst same
      simp only [find, dif_pos] at found
      simp [Option.some.inj found]
    · simp only [find, same, dif_neg, not_false_eq_true] at found
      exact List.mem_cons_of_mem _ (ih found)

theorem containsUpdate (r : Registry κ σ) (j k : κ) (change : σ k → σ k) :
    (r.update k change).contains j = r.contains j := by
  unfold contains
  by_cases same : j = k
  · subst same
    rw [getUpdateSelf, Option.isSome_map]
  · rw [getUpdateOther r same]

theorem containsSet (r : Registry κ σ) (j k : κ) (v : σ k) :
    (r.set k v).contains j = r.contains j := by
  unfold contains
  by_cases same : j = k
  · subst same
    rw [getSetSelf, Option.isSome_map]
  · rw [getSetOther r same]

theorem findAppend (j : κ) (es fs : List ((k : κ) × σ k)) :
    find j (es ++ fs) = (find j es).or (find j fs) := by
  induction es with
  | nil => rfl
  | cons e es ih =>
    obtain ⟨k, v⟩ := e
    by_cases same : k = j
    · subst same
      simp [find]
    · simp [find, same, ih]

theorem getCreated {r s : Registry κ σ} {k : κ} {v : σ k} (created : r.create? k v = some s)
    (j : κ) : s.get? j = (r.get? j).or (find j [⟨k, v⟩]) := by
  unfold create? at created
  split at created
  · cases created
  · cases created
    exact findAppend j r.entries [⟨k, v⟩]

theorem updateCongr {r : Registry κ σ} {k : κ} {change alter : σ k → σ k}
    (agree : ∀ v, r.get? k = some v → change v = alter v) :
    r.update k change = r.update k alter := by
  unfold update
  cases held : r.get? k with
  | none => rfl
  | some v => simp only [agree v held]

end Registry

theorem SystemId.toldProbe (label : String) (p : Probe) (c : Call) :
    (SystemId.probe label).told c p = p.hear c := by
  cases c with
  | create system e r =>
    simp only [told, hear, store]
    split <;> rfl
  | start | afterCreate | destroy | createChild => rfl

namespace Systems

theorem getTold (all : Systems) (c : Call) (s : SystemId) :
    (all.told c).get? s =
      if c.system? = some s then (all.get? s).map (s.told c) else all.get? s := by
  unfold told
  cases called : c.system? with
  | none => simp
  | some system =>
    by_cases same : system = s
    · subst same
      simp only [Registry.getUpdateSelf, if_true]
    · have other : ¬ some system = some s := by simpa using same
      simp only [other, if_false]
      exact Registry.getUpdateOther all (Ne.symm same) _

theorem containsTold (all : Systems) (c : Call) (s : SystemId) :
    (all.told c).contains s = all.contains s := by
  unfold told
  cases c.system? with
  | none => rfl
  | some system => exact Registry.containsUpdate all s system _

theorem containsAttach (all : Systems) (parent child : Entity) (s : SystemId) :
    (all.attach parent child).contains s = all.contains s := Registry.containsUpdate all s _ _

theorem getAttach (all : Systems) (parent child : Entity) {s : SystemId} (other : s ≠ .hierarchy) :
    (all.attach parent child).get? s = all.get? s := Registry.getUpdateOther all other _

theorem damageSet {all hurt : Systems} {e : Entity} {amount left : Single}
    (done : all.damage e amount = some (left, hurt)) : ∃ h, hurt = all.set .healths h := by
  unfold damage at done
  simp only [bind, Option.bind_eq_some_iff] at done
  obtain ⟨h, held, health, found, last⟩ := done
  cases last
  exact ⟨_, rfl⟩

def Probes (p : Probe → Prop) (all : Systems) : Prop :=
  ∀ label probe, all.get? (.probe label) = some probe → p probe

theorem Probes.ofEntries {p : Probe → Prop} {all : Systems}
    (each : ∀ label probe, ⟨.probe label, probe⟩ ∈ all.entries → p probe) : all.Probes p :=
  fun label probe found => each label probe (Registry.memOfFind found)

theorem Probes.told {p : Probe → Prop} {all : Systems} (each : all.Probes p)
    (keeps : ∀ probe c, p probe → p (probe.hear c)) (c : Call) : (all.told c).Probes p := by
  intro label probe found
  rw [getTold] at found
  split at found
  · obtain ⟨before, held, same⟩ := Option.map_eq_some_iff.mp found
    rw [SystemId.toldProbe] at same
    exact same ▸ keeps before c (each label before held)
  · exact each label probe found

theorem Probes.toldAll {p : Probe → Prop} {all : Systems} (each : all.Probes p)
    (keeps : ∀ probe c, p probe → p (probe.hear c)) (cs : List Call) :
    (cs.foldl Systems.told all).Probes p := by
  induction cs generalizing all with
  | nil => exact each
  | cons c cs ih => exact ih (each.told keeps c)

theorem Probes.attach {p : Probe → Prop} {all : Systems} (each : all.Probes p)
    (parent child : Entity) : (all.attach parent child).Probes p := by
  intro label probe found
  rw [getAttach all parent child (by simp)] at found
  exact each label probe found

end Systems
end EntityFoundry
