import EntityFoundry.Proofs.Factory.Runs
/-! What operations count. Only creating issues entities: filling one, destroying and arranging leave
the counter as it was. An entity is issued where its number has been counted. -/
namespace EntityFoundry

def Counter.HasIssued (c : Counter) (e : Entity) : Prop := 0 < e.id.toNat ∧ e.id.toNat ≤ c.issued

namespace Factory

theorem createCounted (f : Factory) : f.create.1.id.toNat ≤ f.create.2.counter.issued :=
  Nat.le_trans (Nat.le_of_eq UInt64.toNat_ofNat') (Nat.mod_le _ _)

theorem counterFold {α : Type} {step : Factory → α → Factory}
    (kept : ∀ f x, (step f x).counter = f.counter) (xs : List α) (f : Factory) :
    (xs.foldl step f).counter = f.counter := by
  induction xs generalizing f with
  | nil => rfl
  | cons x xs ih => exact (ih (step f x)).trans (kept f x)

theorem counterDestroyIn (e : Entity) (f : Factory) (s : SystemId) :
    (destroyIn e f s).counter = f.counter := by
  unfold destroyIn
  cases f.systems.get? s <;> rfl

theorem counterDestroy (f : Factory) (e : Entity) : (f.destroy e).counter = f.counter :=
  counterFold (counterDestroyIn e) f.attached f

theorem counterDestroyQueued (f : Factory) : f.destroyQueued.counter = f.counter := by
  unfold destroyQueued
  cases f.queue with
  | nil => rfl
  | cons e es => exact counterFold counterDestroy (e :: es) { f with queue := [] }

end Factory
end EntityFoundry
