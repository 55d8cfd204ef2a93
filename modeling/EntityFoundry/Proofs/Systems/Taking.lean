import EntityFoundry.Proofs.Systems.Told
/-! Which offers systems take. Taking depends on the states the systems are in when an offer is
made, and each offer may change them; links between entities have no part in it. -/
namespace EntityFoundry

abbrev Offer := SystemId × Record

namespace Systems

def accepts (all : Systems) (e : Entity) (offer : Offer) : Bool :=
  match all.get? offer.1 with
  | some state => offer.1.accepts state e offer.2
  | none => false

def taken (e : Entity) : List Offer → Systems → List Offer
  | [], _ => []
  | offer :: offers, all =>
    let later := taken e offers (all.told (.create offer.1 e offer.2))
    if all.accepts e offer then offer :: later else later

structure Like (all other : Systems) : Prop where
  states : ∀ s, s ≠ .hierarchy → all.get? s = other.get? s
  held : ∀ s, all.contains s = other.contains s

namespace Like
variable {all other : Systems}

theorem refl (all : Systems) : Like all all := ⟨fun _ _ => rfl, fun _ => rfl⟩

theorem trans {third : Systems} (first : Like all other) (second : Like other third) :
    Like all third :=
  ⟨fun s links => (first.states s links).trans (second.states s links),
    fun s => (first.held s).trans (second.held s)⟩

theorem attach (all : Systems) (parent child : Entity) : Like all (all.attach parent child) :=
  ⟨fun _ links => (getAttach all parent child links).symm,
    fun s => (containsAttach all parent child s).symm⟩

theorem told (like : Like all other) (c : Call) : Like (all.told c) (other.told c) := by
  refine ⟨fun s links => ?_, fun s => ?_⟩
  · rw [getTold, getTold, like.states s links]
  · rw [containsTold, containsTold, like.held]

theorem toldAll (like : Like all other) (cs : List Call) :
    Like (cs.foldl Systems.told all) (cs.foldl Systems.told other) := by
  induction cs generalizing all other with
  | nil => exact like
  | cons c cs ih => exact ih (like.told c)

theorem accepts (like : Like all other) (e : Entity) (offer : Offer) :
    all.accepts e offer = other.accepts e offer := by
  obtain ⟨s, r⟩ := offer
  by_cases links : s = .hierarchy
  · subst links
    have held := like.held .hierarchy
    unfold Registry.contains at held
    unfold Systems.accepts
    cases left : all.get? .hierarchy <;> cases right : other.get? .hierarchy <;>
      simp_all [SystemId.accepts, SystemId.verdict]
  · unfold Systems.accepts
    rw [like.states s links]

theorem taken (like : Like all other) (e : Entity) (offers : List Offer) :
    Systems.taken e offers all = Systems.taken e offers other := by
  induction offers generalizing all other with
  | nil => rfl
  | cons offer offers ih =>
    rw [Systems.taken, Systems.taken, like.accepts, ih (like.told _)]

end Like

theorem containsToldAll (all : Systems) (cs : List Call) (s : SystemId) :
    (cs.foldl told all).contains s = all.contains s := by
  induction cs generalizing all with
  | nil => rfl
  | cons c cs ih => exact (ih (all.told c)).trans (containsTold all c s)

end Systems

def Probe.Steady (p : Probe) : Prop :=
  ∀ memory earlier d e r, p.judge memory d r = p.judge earlier e r

namespace Systems
variable {all : Systems}

theorem steadyTold (steady : all.Probes Probe.Steady) (c : Call) :
    (all.told c).Probes Probe.Steady := steady.told (fun _ _ same => same) c

theorem verdictTold (steady : all.Probes Probe.Steady) {s : SystemId} {state : s.State}
    (held : all.get? s = some state) (c : Call) (e : Entity) (r : Record) :
    s.verdict (s.told c state) e r = s.verdict state e r := by
  cases s with
  | probe label =>
    rw [SystemId.toldProbe]
    exact steady label state held _ _ e e r
  | names | healths | transforms | hierarchy | plain => rfl

theorem acceptsTold (steady : all.Probes Probe.Steady) (c : Call) (e : Entity) (offer : Offer) :
    (all.told c).accepts e offer = all.accepts e offer := by
  unfold accepts
  rw [getTold]
  cases held : all.get? offer.1 with
  | none => simp
  | some state =>
    by_cases called : c.system? = some offer.1
    · simp only [called, if_true, Option.map_some, SystemId.accepts, verdictTold steady held c e]
    · simp only [called, if_false]

theorem takenSteady (steady : all.Probes Probe.Steady) (e : Entity) (offers : List Offer) :
    taken e offers all = offers.filter (all.accepts e) := by
  induction offers generalizing all with
  | nil => rfl
  | cons offer offers ih =>
    have accepted := funext (acceptsTold steady (.create offer.1 e offer.2) e)
    rw [taken, ih (steadyTold steady _), List.filter_cons, accepted]

end Systems
end EntityFoundry
