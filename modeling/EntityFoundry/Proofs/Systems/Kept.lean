import EntityFoundry.Proofs.Systems.Taking
/-! What the systems of the program keep of an entity: one value per component type. A record that
decodes as its type, and that no check refuses, puts its value in the place of the one before;
every other record leaves the store as it is. -/
namespace EntityFoundry

namespace Kind

abbrev system : Kind → SystemId
  | .name => .names
  | .health => .healths
  | .transform => .transforms

def kept (e : Entity) : (k : Kind) → k.system.State → Option k.Value
  | .name, d => d.get? e
  | .health, h => h.healths.get? e
  | .transform, d => d.get? e

def keep (e : Entity) : (k : Kind) → k.system.State → k.Value → k.system.State
  | .name, d, x => d.insert e x
  | .health, h, x => { h with healths := h.healths.insert e x }
  | .transform, d, x => d.insert e x

def admits : (k : Kind) → k.Value → Bool
  | .health, h => !h.max.isNonPositive
  | _, _ => true

def given (k : Kind) (r : Record) : Option k.Value := (r.decode k).toOption.filter k.admits

theorem givenTag {k : Kind} {r : Record} {x : k.Value} (given : k.given r = some x) :
    r.tag = k.tag := by
  unfold Kind.given Record.decode at given
  split at given
  next same => exact same
  next => cases given

theorem keptKeep (e d : Entity) (k : Kind) (state : k.system.State) (x : k.Value) :
    k.kept d (k.keep e state x) = if d = e then some x else k.kept d state := by
  cases k <;> exact Dict.getInsert _ e d x

theorem keptKeepAll (e : Entity) (k : Kind) (state : k.system.State) (xs : List k.Value) :
    k.kept e (xs.foldl (k.keep e) state) = xs.getLast?.or (k.kept e state) := by
  induction xs generalizing state with
  | nil => rfl
  | cons x xs ih =>
    rw [List.foldl_cons, ih, keptKeep, if_pos rfl, List.getLast?_cons]
    cases xs.getLast? <;> rfl

theorem keptKeepOther {e d : Entity} (other : d ≠ e) (k : Kind) (state : k.system.State)
    (xs : List k.Value) : k.kept d (xs.foldl (k.keep e) state) = k.kept d state := by
  induction xs generalizing state with
  | nil => rfl
  | cons x xs ih => rw [List.foldl_cons, ih, keptKeep, if_neg other]

theorem acceptsGiven (k : Kind) (state : k.system.State) (e : Entity) (r : Record) :
    k.system.accepts state e r = (k.given r).isSome := by
  cases k with
  | name | transform =>
    simp only [SystemId.accepts, SystemId.verdict, given]
    cases r.decode _ <;> rfl
  | health =>
    simp only [SystemId.accepts, SystemId.verdict, given]
    cases r.decode .health with
    | error error => rfl
    | ok h =>
      cases refused : h.max.isNonPositive <;>
        simp [refused, admits, Except.toOption, bind, Except.bind, pure, Except.pure, throw,
          throwThe, MonadExceptOf.throw, Except.toBool]

theorem storeGiven {k : Kind} {r : Record} {x : k.Value} (given : k.given r = some x) (e : Entity)
    (state : k.system.State) : k.system.store e r state = k.keep e state x := by
  obtain ⟨decoded, -⟩ := Option.filter_eq_some_iff.mp given
  cases read : r.decode k with
  | error error =>
    rw [read] at decoded
    cases decoded
  | ok y =>
    rw [read] at decoded
    cases decoded
    cases k <;> simp only [SystemId.store, read, keep]

theorem toldCreate (s : SystemId) (k : Kind) (state : k.system.State) (e : Entity) (r : Record) :
    k.system.told (.create s e r) state =
      match k.given r with
      | some x => k.keep e state x
      | none => state := by
  have heard : k.system.hear (.create s e r) state = state := by cases k <;> rfl
  simp only [SystemId.told, acceptsGiven, heard]
  cases given : k.given r with
  | none => rfl
  | some x => exact storeGiven given e state

theorem toldAfter (s : SystemId) (k : Kind) (e : Entity) (r : Record) :
    k.system.told (.afterCreate s e r) = id := by cases k <;> rfl

theorem keptDestroy (s : SystemId) (d e : Entity) (k : Kind) (state : k.system.State) :
    k.kept e (k.system.told (.destroy s d) state) = if e = d then none else k.kept e state := by
  cases k <;> exact Dict.getErase _ d e

end Kind

namespace Systems

def valueOf (all : Systems) (k : Kind) (e : Entity) : Option k.Value :=
  (all.get? k.system).bind (k.kept e)

def Meant (k : Kind) (offers : List Offer) : Prop :=
  ∀ offer ∈ offers, (k.given offer.2).isSome = true → offer.1 = k.system

theorem getUnmoved (all : Systems) {c : Call} {s : SystemId} (still : s.told c = id) :
    (all.told c).get? s = all.get? s := by
  rw [getTold, still, Option.map_id_fun, id, ite_self]

theorem keptOffered {k : Kind} (all : Systems) (e : Entity) {offers : List Offer}
    (meant : Meant k offers) :
    ((offers.map fun o => Call.create o.1 e o.2).foldl told all).get? k.system =
      (all.get? k.system).map fun state =>
        ((offers.map (·.2)).filterMap k.given).foldl (k.keep e) state := by
  induction offers generalizing all with
  | nil => exact Option.map_id'.symm
  | cons offer offers ih =>
    obtain ⟨first, later⟩ := List.forall_mem_cons.mp meant
    rw [List.map_cons, List.foldl_cons, ih (all.told _) later]
    have told (state : k.system.State) := Kind.toldCreate offer.1 k state e offer.2
    cases given : k.given offer.2 with
    | none =>
      simp only [given] at told
      rw [getUnmoved all (funext told)]
      simp [given]
    | some x =>
      simp only [given] at told
      have called : (Call.create offer.1 e offer.2).system? = some k.system :=
        congrArg some (first (by rw [given]; rfl))
      rw [getTold, if_pos called, funext told]
      simp [given, Function.comp_def]

theorem keptAfter (k : Kind) (all : Systems) (e : Entity) (offers : List Offer) :
    ((offers.map fun o => Call.afterCreate o.1 e o.2).foldl told all).get? k.system =
      all.get? k.system := by
  induction offers generalizing all with
  | nil => rfl
  | cons offer offers ih =>
    rw [List.map_cons, List.foldl_cons, ih]
    exact getUnmoved all (Kind.toldAfter offer.1 k e offer.2)

theorem takenGiven {k : Kind} {all : Systems} (held : all.contains k.system = true) (e : Entity)
    {offers : List Offer} (meant : Meant k offers) :
    ((taken e offers all).map (·.2)).filterMap k.given = (offers.map (·.2)).filterMap k.given := by
  induction offers generalizing all with
  | nil => rfl
  | cons offer offers ih =>
    obtain ⟨first, later⟩ := List.forall_mem_cons.mp meant
    have rest := ih ((containsTold all (.create offer.1 e offer.2) k.system).trans held) later
    rw [taken]
    cases given : k.given offer.2 with
    | none => split <;> simp [given, rest]
    | some x =>
      have meantFor : offer.1 = k.system := first (by rw [given]; rfl)
      have accepted : all.accepts e offer = true := by
        obtain ⟨state, found⟩ := Option.isSome_iff_exists.mp held
        obtain ⟨s, r⟩ := offer
        obtain rfl : s = k.system := meantFor
        simp only [accepts, found, Kind.acceptsGiven, given, Option.isSome_some]
      simp [accepted, given, rest]

end Systems
end EntityFoundry
