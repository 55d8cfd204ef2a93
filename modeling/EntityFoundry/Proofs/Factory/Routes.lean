import EntityFoundry.Proofs.Factory.Attaching
import EntityFoundry.Proofs.Factory.Growth
/-! The table of attached systems and the routes to them, told from the history of a setup. A system
keeps the place of its first attachment and stands there for its one entry in the registry; and a
record goes where the latest registration of its type sends it, if that system is attached. -/
namespace EntityFoundry

namespace Registry
variable {κ : Type} [DecidableEq κ] {σ : κ → Type} {r q : Registry κ σ} {k : κ} {i : Nat}

def number? (r : Registry κ σ) (k : κ) : Option Nat := r.keys.idxOf? k

theorem memKeys (r : Registry κ σ) (k : κ) : k ∈ r.keys ↔ r.contains k = true := by
  unfold keys contains get?
  induction r.entries with
  | nil => simp [find]
  | cons e es ih =>
    by_cases same : e.1 = k
    · simp [find, same]
    · have different : ¬ k = e.1 := fun equal => same equal.symm
      simp [find, same, different, ← ih]

theorem numberLonger (longer : r.entries <+: q.entries) (found : r.number? k = some i) :
    q.number? k = some i := (longer.map _).findIdx?_eq_some found

theorem numberCreated {v : σ k} (created : r.create? k v = some q) : q.number? k = some r.size := by
  obtain ⟨free, entries⟩ := entriesCreated created
  have absent : r.keys.idxOf? k = none := by
    simp [List.idxOf?_eq_none_iff, memKeys, free]
  have last : q.keys = r.keys ++ [k] := by simp [keys, entries]
  unfold number? List.idxOf? at *
  rw [last, List.findIdx?_append, absent]
  simp [List.findIdx?_cons, keys, size]

theorem unnumbered (missing : r.number? k = none) : r.get? k = none := by
  have absent := List.idxOf?_eq_none_iff.mp missing
  rw [memKeys, contains] at absent
  simpa using absent

theorem numbered (found : r.number? k = some i) :
    ∃ v, r.entries[i]? = some ⟨k, v⟩ ∧ r.get? k = some v := by
  unfold number? keys at found
  unfold get?
  generalize r.entries = es at found ⊢
  induction es generalizing i with
  | nil => cases found
  | cons e es ih =>
    obtain ⟨j, v⟩ := e
    rw [List.map_cons, List.idxOf?_cons] at found
    by_cases same : j = k
    · subst same
      simp only [beq_self_eq_true, if_true] at found
      cases found
      exact ⟨v, rfl, by simp [find]⟩
    · simp only [beq_iff_eq, same, if_false] at found
      obtain ⟨n, later, rfl⟩ := Option.map_eq_some_iff.mp found
      obtain ⟨w, there, held⟩ := ih later
      exact ⟨w, there, by simp [find, same, held]⟩

end Registry

namespace Factory

/-! Seats. -/

/-- A system in the table, and which entry of the registry it stands for there. -/
abbrev Seat := SystemId × Nat

def Op.seats (f : Factory) : Op → List (Option Nat × Seat)
  | .createSystem s _ =>
    if f.systems.contains s then [] else [(f.positions.get? s, (s, f.systems.size))]
  | .attachRegistered s => ((f.systems.number? s).map fun n => (f.positions.get? s, (s, n))).toList
  | _ => []

def seatIn (table : List Seat) : Option Nat × Seat → List Seat
  | (some i, seat) => table.set i seat
  | (none, seat) => table ++ [seat]

def table (ops : List Op) (f : Factory) : List Seat := (logged Op.seats ops f).foldl seatIn []

structure Tabled (f : Factory) (table : List Seat) : Prop where
  seated : f.Seated
  order : table.map (·.1) = f.attached
  entries : ∀ seat ∈ table, f.systems.number? seat.1 = some seat.2

namespace Tabled
variable {f g : Factory} {table : List Seat}

theorem keep (tabled : Tabled f table) {rs : List (Tag × SystemId)}
    {ds : List (SystemId × SystemId)} (setUp : SetUp f g [] rs ds) : Tabled g table :=
  ⟨setUp.seated, tabled.order.trans setUp.table.symm,
    fun seat member => Registry.numberLonger setUp.entries (tabled.entries seat member)⟩

theorem attach (tabled : Tabled f table) {x : Held} {n : Nat}
    (number : f.systems.number? x.1 = some n) {rs : List (Tag × SystemId)}
    {ds : List (SystemId × SystemId)} (setUp : SetUp f g [x] rs ds) :
    Tabled g (seatIn table (f.positions.get? x.1, (x.1, n))) := by
  have entries : ∀ seat ∈ table, g.systems.number? seat.1 = some seat.2 := fun seat member =>
    Registry.numberLonger setUp.entries (tabled.entries seat member)
  have entry : g.systems.number? x.1 = some n := Registry.numberLonger setUp.entries number
  have order : g.attached = enlist f.attached x.1 := setUp.table
  cases place : f.positions.get? x.1 with
  | none =>
    have absent := tabled.seated.unplaced place
    refine ⟨setUp.seated, ?_, List.forall_mem_append.mpr ⟨entries, by simpa using entry⟩⟩
    rw [order, enlist, if_neg absent, ← tabled.order]
    simp [seatIn]
  | some i =>
    -- The system has a place, so its seat there is replaced and the order stays.
    have there := (tabled.seated.seats x.1 i).mp place
    obtain ⟨inside, same⟩ := List.getElem?_eq_some_iff.mp there
    refine ⟨setUp.seated, ?_, fun seat member => ?_⟩
    · rw [order, enlist, if_pos (List.mem_of_getElem? there), seatIn, List.map_set, tabled.order,
        ← same, List.set_getElem_self]
    · rcases List.mem_or_eq_of_mem_set member with before | rfl
      · exact entries seat before
      · exact entry

theorem apply (tabled : Tabled f table) {op : Op} (setsUp : op.setsUp = true) :
    Tabled (f.apply op) ((op.seats f).foldl seatIn table) := by
  have setUp := SetUp.apply tabled.seated setsUp
  cases op with
  | registerSystem | registerTag => exact tabled.keep setUp
  | createSystem s p =>
    simp only [Op.seats, Op.attaches] at setUp ⊢
    cases new : f.systems.create? s (s.fresh p) with
    | none =>
      have holds : f.systems.contains s = true := by simpa [Registry.create?] using new
      simp only [holds, if_true] at setUp ⊢
      exact tabled.keep setUp
    | some systems =>
      have free := (Registry.entriesCreated new).1
      have made := tabled.keep (SetUp.created tabled.seated new)
      have setUp := SetUp.createSystem tabled.seated new
      have attached := made.attach (Registry.numberCreated new) setUp
      simpa [free, Factory.apply] using attached
  | attachRegistered s =>
    simp only [Op.seats, Op.attaches] at setUp ⊢
    cases number : f.systems.number? s with
    | none =>
      simp only [Registry.unnumbered number] at setUp
      exact tabled.keep setUp
    | some n =>
      obtain ⟨state, -, held⟩ := Registry.numbered number
      simp only [held] at setUp
      exact tabled.attach number setUp
  | _ => cases setsUp

theorem run (tabled : Tabled f table) {ops : List Op} (setUp : ∀ op ∈ ops, op.setsUp = true) :
    Tabled (f.run ops) ((logged Op.seats ops f).foldl seatIn table) := by
  induction ops generalizing f table with
  | nil => exact tabled
  | cons op ops ih =>
    obtain ⟨first, later⟩ := List.forall_mem_cons.mp setUp
    rw [logged, List.foldl_append]
    exact ih (tabled.apply first) later

end Tabled

/-! Routes. -/

def latest (registered : List (Tag × SystemId)) (tag : Tag) : Option SystemId :=
  ((registered.filter (·.1 = tag)).getLast?).map (·.2)

theorem routesRegistered (routes : Dict Tag SystemId) (registered : List (Tag × SystemId))
    (tag : Tag) :
    (registered.foldl (fun routes r => routes.insert r.1 r.2) routes).get? tag =
      (latest registered tag).or (routes.get? tag) := by
  induction registered using List.reverseRecOn with
  | nil => rfl
  | append_singleton registered r ih =>
    rw [List.foldl_append, List.foldl_cons, List.foldl_nil, Dict.getInsert, ih]
    by_cases same : r.1 = tag
    · simp [latest, same]
    · have different : ¬ tag = r.1 := fun equal => same equal.symm
      simp [latest, same, different]

theorem Seated.systemFor {f : Factory} (seated : f.Seated) (tag : Tag) :
    f.systemFor tag = (f.routes.get? tag).filter (· ∈ f.attached) := by
  unfold Factory.systemFor
  cases f.routes.get? tag with
  | none => rfl
  | some s =>
    cases place : f.positions.get? s with
    | none => simp [place, seated.unplaced place, Option.filter_some]
    | some i =>
      have there := (seated.seats s i).mp place
      simp [place, there, List.mem_of_getElem? there, Option.filter_some]

theorem Seated.taker {f : Factory} (seated : f.Seated) (tag : Tag) :
    f.taker? tag = f.systemFor tag := by
  unfold taker?
  cases routed : f.systemFor tag with
  | none => rfl
  | some s =>
    rw [seated.systemFor] at routed
    have attached := (Option.filter_eq_some_iff.mp routed).2
    exact Option.filter_some_pos (seated.held s (of_decide_eq_true attached))

theorem createSystemAnswers (f : Factory) (s : SystemId) (state : s.State) :
    if f.systems.contains s then
      f.createSystem s state =
        (.error (.alreadyRegistered s), f.note (.systemRefused (.alreadyRegistered s)))
    else (f.createSystem s state).1 = .ok () := by
  cases held : f.systems.contains s <;> simp [createSystem, registerSystem, Registry.create?, held]

theorem setupTableRoutes {f : Factory} (new : f.Unattached) {ops : List Op}
    (setUp : ∀ op ∈ ops, op.setsUp = true) :
    let g := f.run ops
    let order := ((attachments ops f).map (·.1)).eraseDups
    let routed (tag : Tag) := (latest (registrations ops f) tag).filter (· ∈ order)
    g.attached = order ∧ order.Nodup ∧
      (∀ s i, g.positions.get? s = some i ↔ g.attached[i]? = some s) ∧
      (∀ more : List Op, (∀ op ∈ more, op.setsUp = true) →
        ∀ s i, g.positions.get? s = some i → (g.run more).positions.get? s = some i) ∧
      (table ops f).map (·.1) = g.attached ∧
      (∀ seat ∈ table ops f, ∃ state, g.systems.entries[seat.2]? = some ⟨seat.1, state⟩ ∧
        g.systems.get? seat.1 = some state) ∧
      (∀ s (state : s.State),
        if g.systems.contains s then
          g.createSystem s state =
            (.error (.alreadyRegistered s), g.note (.systemRefused (.alreadyRegistered s)))
        else (g.createSystem s state).1 = .ok ()) ∧
      (∀ tag, g.systemFor tag = routed tag) ∧
      ∀ e b, (g.dispatch e b).calls =
        g.calls ++ nodeCalls e (b.filterMap fun r => (routed r.tag).map (·, r)) g.systems := by
  intro g order routed
  have run : SetUp f g (attachments ops f) (registrations ops f)
    ((attachments ops f).flatMap Held.declarations) := .run new.seated setUp
  have start : Tabled f [] := ⟨new.seated, new.attached.symm, List.forall_mem_nil _⟩
  have tabled : Tabled g (table ops f) := start.run setUp
  have attached : g.attached = order := by rw [run.table, new.attached, enlistAll]
  have route (tag : Tag) : g.systemFor tag = routed tag := by
    have registered : g.routes.get? tag = latest (registrations ops f) tag := by
      rw [run.routes, routesRegistered, new.routes]
      exact Option.or_none
    rw [run.seated.systemFor, registered, attached]
  refine ⟨attached, eraseDupsNodup _, run.seated.seats, fun more later s i place => ?_,
    tabled.order, fun seat member => Registry.numbered (tabled.entries seat member),
    createSystemAnswers g, route, fun e b => ?_⟩
  · have further := SetUp.run run.seated later
    obtain ⟨last, longer⟩ := enlistPrefix g.attached ((attachments more g).map (·.1))
    have there := (run.seated.seats s i).mp place
    refine (further.seated.seats s i).mpr ?_
    rw [further.table, ← longer, List.getElem?_append_left (List.getElem?_eq_some_iff.mp there).1]
    exact there
  · rw [(dispatchGrown g e b).calls]
    have offers : g.offers b = b.filterMap fun r => (routed r.tag).map (·, r) := by
      unfold Factory.offers
      simp only [run.seated.taker, route]
    rw [offers]

theorem namesTakenBackRoutes :
    let f := initial {} (.memory {} 0)
    let ops : List Op :=
      [.registerSystem (.probe "audio") {}, .registerTag .plain Kind.health.tag,
        .createSystem .names {},
        .createSystem (.probe "log") { tags := [Kind.transform.tag, Kind.name.tag] },
        .attachRegistered .names, .createSystem .names {}, .createSystem .plain {},
        .registerTag .hierarchy Kind.transform.tag]
    let g := f.run ops
    let named := Record.ofValue .name "cart"
    let healthy : Record := ⟨Kind.health.tag, .owned []⟩
    let moved : Record := ⟨Kind.transform.tag, .owned []⟩
    f.Unattached ∧ (∀ op ∈ ops, op.setsUp = true) ∧
      g.attached = [.names, .probe "log", .plain] ∧
      table ops f = [(.names, 1), (.probe "log", 2), (.plain, 3)] ∧
      g.systems.keys = [.probe "audio", .names, .probe "log", .plain] ∧
      g.positions.get? .plain = some 2 ∧
      (g.run [.attachRegistered .names]).positions.get? .plain = some 2 ∧
      (g.dispatch ⟨1⟩ [moved, named, healthy]).calls =
        g.calls ++ [.create .names ⟨1⟩ named, .create .plain ⟨1⟩ healthy,
          .afterCreate .names ⟨1⟩ named, .afterCreate .plain ⟨1⟩ healthy] := by
  intro f ops g named healthy moved
  have new : f.Unattached := ⟨rfl, rfl, rfl, rfl⟩
  have setUp : ∀ op ∈ ops, op.setsUp = true := by decide +kernel
  obtain ⟨-, -, -, kept, -, -, -, -, calls⟩ := setupTableRoutes new setUp
  have place : g.positions.get? .plain = some 2 := by decide +kernel
  have still := kept [.attachRegistered .names] (by decide) .plain 2 place
  refine ⟨new, setUp, by decide +kernel, by decide +kernel, by decide +kernel, place, still, ?_⟩
  exact (calls ⟨1⟩ [moved, named, healthy]).trans (congrArg (g.calls ++ ·) (by decide +kernel))

end Factory
end EntityFoundry
