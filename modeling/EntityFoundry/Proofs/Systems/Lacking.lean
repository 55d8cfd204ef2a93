import EntityFoundry.Proofs.Systems.Links
import EntityFoundry.Proofs.Systems.Told
/-! Entities the systems know nothing of. An entity gets into a system by a record that is offered for
it, and into the links by being attached; nothing else that is done for other entities brings it
in. -/
namespace EntityFoundry

namespace Links

structure Lacks (l : Links) (e : Entity) : Prop where
  asChild : l.parents.get? e = none
  asParent : ∀ c, l.parents.get? c ≠ some e
  list : l.children.get? e = none
  listed : ∀ p cs, l.children.get? p = some cs → e ∉ cs

namespace Lacks
variable {l : Links} {e : Entity} (lacks : l.Lacks e)
include lacks

theorem attach {parent child : Entity} (up : parent ≠ e) (down : child ≠ e) :
    (l.attach parent child).Lacks e where
  asChild := by simp [Links.attach, Dict.getInsert, down.symm, lacks.asChild]
  asParent c := by
    simp only [Links.attach, Dict.getInsert]
    split
    · exact fun same => up (Option.some.inj same)
    · exact lacks.asParent c
  list := by simp [Links.attach, Dict.getInsert, up.symm, lacks.list]
  listed p cs found := by
    simp only [Links.attach, Dict.getInsert] at found
    split at found
    · cases found
      refine fun member => (List.mem_append.mp member).elim (fun before => ?_) fun last => ?_
      · cases held : l.children.get? parent with
        | none => simp [childrenOf, held] at before
        | some siblings =>
          exact lacks.listed parent siblings held (by simpa [childrenOf, held] using before)
      · exact down (List.mem_singleton.mp last).symm
    · exact lacks.listed p cs found

theorem leaveParent (d : Entity) : (l.leaveParent d).Lacks e := by
  unfold Links.leaveParent
  cases found : l.parentOf d with
  | none => exact lacks
  | some parent =>
    refine ⟨?_, fun c => ?_, ?_, fun p cs found => ?_⟩
    · simp [Dict.getErase, lacks.asChild]
    · simp only [Dict.getErase]
      split
      · simp
      · exact lacks.asParent c
    · cases held : l.children.get? parent with
      | none => simp [held, lacks.list]
      | some siblings =>
        have other : e ≠ parent := by
          rintro rfl
          rw [lacks.list] at held
          cases held
        simp [held, Dict.getInsert, other, lacks.list]
    · cases held : l.children.get? parent with
      | none =>
        simp only [held] at found
        exact lacks.listed p cs found
      | some siblings =>
        simp only [held, Dict.getInsert] at found
        split at found
        · cases found
          exact fun member => lacks.listed parent siblings held (List.mem_filter.mp member).1
        · exact lacks.listed p cs found

theorem detach (d : Entity) : (l.detach d).Lacks e := by
  have left := lacks.leaveParent d
  refine ⟨?_, fun c => ?_, ?_, fun p cs found => ?_⟩
  · simp [Links.detach, Dict.getEraseAll, left.asChild]
  · simp only [Links.detach, Dict.getEraseAll]
    split
    · simp
    · exact left.asParent c
  · simp [Links.detach, Dict.getErase, left.list]
  · simp only [Links.detach, Dict.getErase] at found
    split at found
    · cases found
    · exact left.listed p cs found

end Lacks

theorem emptyLacks (e : Entity) : Lacks {} e :=
  ⟨rfl, fun _ found => (nomatch found), rfl, fun _ _ found => (nomatch found)⟩

end Links

namespace SystemId

/-- The system has nothing of the entity. What a system from outside remembers is its own affair. -/
def Lacks (e : Entity) : (s : SystemId) → s.State → Prop
  | .names, d => d.get? e = none
  | .healths, h => h.healths.get? e = none
  | .transforms, d => d.get? e = none
  | .hierarchy, l => l.Lacks e
  | .plain, _ => True
  | .probe _, _ => True

theorem Lacks.told {e : Entity} {s : SystemId} {state : s.State} (lacks : s.Lacks e state)
    {c : Call} (other : ∀ t d r, c = .create t d r → d ≠ e) : s.Lacks e (s.told c state) := by
  cases c with
  | create t d r =>
    have different : e ≠ d := (other t d r rfl).symm
    simp only [SystemId.told]
    split
    · cases s with
      | names =>
        simp only [hear, store]
        split <;> simp_all [Lacks, Dict.getInsert]
      | healths =>
        simp only [hear, store]
        split <;> simp_all [Lacks, Dict.getInsert]
      | transforms =>
        simp only [hear, store]
        split <;> simp_all [Lacks, Dict.getInsert]
      | hierarchy | plain | probe => exact lacks
    · cases s <;> exact lacks
  | destroy t d =>
    cases s with
    | names => simpa [Lacks, SystemId.told, hear, forget, Dict.getErase] using fun _ => lacks
    | healths => simpa [Lacks, SystemId.told, hear, forget, Dict.getErase] using fun _ => lacks
    | transforms => simpa [Lacks, SystemId.told, hear, forget, Dict.getErase] using fun _ => lacks
    | hierarchy => exact Links.Lacks.detach lacks d
    | plain | probe => trivial
  | start | afterCreate | createChild => cases s <;> exact lacks

end SystemId

namespace Systems

def Lack (all : Systems) (e : Entity) : Prop := ∀ s state, all.get? s = some state → s.Lacks e state

namespace Lack
variable {all : Systems} {e : Entity} (lack : all.Lack e)
include lack

theorem told {c : Call} (other : ∀ t d r, c = .create t d r → d ≠ e) : (all.told c).Lack e := by
  intro s state found
  rw [getTold] at found
  split at found
  · obtain ⟨before, held, rfl⟩ := Option.map_eq_some_iff.mp found
    exact (lack s before held).told other
  · exact lack s state found

theorem attach {parent child : Entity} (up : parent ≠ e) (down : child ≠ e) :
    (all.attach parent child).Lack e := by
  intro s state found
  by_cases links : s = .hierarchy
  · subst links
    rw [Systems.attach, Registry.getUpdateSelf] at found
    obtain ⟨before, held, rfl⟩ := Option.map_eq_some_iff.mp found
    exact Links.Lacks.attach (lack .hierarchy before held) up down
  · rw [getAttach all parent child links] at found
    exact lack s state found

theorem damaged {d : Entity} {amount left : Single} {hurt : Systems}
    (done : all.damage d amount = some (left, hurt)) : hurt.Lack e := by
  unfold damage at done
  simp only [bind, Option.bind_eq_some_iff] at done
  obtain ⟨h, held, health, found, last⟩ := done
  cases last
  have kept : h.healths.get? e = none := lack .healths h held
  have other : e ≠ d := by
    rintro rfl
    rw [kept] at found
    cases found
  intro s state after
  by_cases same : s = .healths
  · subst same
    rw [Registry.getSetSelf, held] at after
    cases after
    simp [SystemId.Lacks, Dict.getInsert, other, kept]
  · rw [Registry.getSetOther all same] at after
    exact lack s state after

theorem created {s : SystemId} {new : s.State} {more : Systems} (lacks : s.Lacks e new)
    (done : all.create? s new = some more) : more.Lack e := by
  intro t state found
  rw [Registry.getCreated done] at found
  cases held : all.get? t with
  | some before =>
    rw [held] at found
    cases found
    exact lack t _ held
  | none =>
    rw [held, Option.none_or] at found
    by_cases same : s = t
    · subst same
      simp only [Registry.find, dif_pos] at found
      cases found
      exact lacks
    · simp [Registry.find, same] at found

theorem nameOf : all.nameOf e = none := by
  unfold Systems.nameOf
  cases found : all.get? .names with
  | none => rfl
  | some names => exact lack .names names found

theorem healthOf : all.healthOf e = none := by
  unfold Systems.healthOf
  cases found : all.get? .healths with
  | none => rfl
  | some h => exact lack .healths h found

theorem transformOf : all.transformOf e = none := by
  unfold Systems.transformOf
  cases found : all.get? .transforms with
  | none => rfl
  | some transforms => exact lack .transforms transforms found

end Lack
end Systems
end EntityFoundry
