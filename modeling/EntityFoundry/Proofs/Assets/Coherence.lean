import EntityFoundry.Assets.Cache
import Mathlib.Data.List.Induction
/-! A cache among threads. A call looks the file up, and if it finds nothing it reads the source and
keeps what it read unless a copy is there by then; between these steps other threads may come in,
and the source may answer each read as it likes. Whatever the order, a copy that is there is the one
that every call answers until someone puts in another or releases it. -/
namespace EntityFoundry.Cache

structure Miss where
  filename : String
  since : Nat
  read : Option Bytes := none

structure Finish where
  thread : Nat
  filename : String
  since : Nat
  result : Except AssetError Bytes
  deriving DecidableEq

inductive Event
  | lookup (thread : Nat) (filename : String)
  | read (thread : Nat) (outcome : Except AssetError Bytes)
  | keep (thread : Nat)
  | insert (filename : String) (bytes : Bytes)
  | release (filename : String)

def Event.sets : Event → Option String
  | .insert filename _ | .release filename => some filename
  | _ => none

structure Shared where
  cache : Cache
  misses : Dict Nat Miss := {}
  clock : Nat := 0

namespace Shared

/-- A thread makes one call at a time; it does nothing when its call is not at that step. -/
def effect (s : Shared) : Event → Option Finish × Shared
  | .lookup t filename =>
    if s.misses.contains t then (none, s)
    else
      match s.cache.lookup filename with
      | some bytes => (some ⟨t, filename, s.clock, .ok bytes⟩, s)
      | none => (none, { s with misses := s.misses.insert t ⟨filename, s.clock, none⟩ })
  | .read t outcome =>
    match s.misses.get? t with
    | some ⟨filename, since, none⟩ =>
      let s := { s with cache := { s.cache with source := s.cache.source.counted } }
      match outcome with
      | .ok bytes => (none, { s with misses := s.misses.insert t ⟨filename, since, some bytes⟩ })
      | .error e =>
        (some ⟨t, filename, since, .error e⟩, { s with misses := s.misses.erase t })
    | _ => (none, s)
  | .keep t =>
    match s.misses.get? t with
    | some ⟨filename, since, some bytes⟩ =>
      let (kept, cache) := s.cache.keepFirst filename bytes
      (some ⟨t, filename, since, .ok kept⟩,
        { s with cache := cache, misses := s.misses.erase t })
    | _ => (none, s)
  | .insert filename bytes => (none, { s with cache := s.cache.insert filename bytes })
  | .release filename => (none, { s with cache := s.cache.release filename })

def next (s : Shared) (event : Event) : Shared := { (s.effect event).2 with clock := s.clock + 1 }

def run (s : Shared) (events : List Event) : Shared := events.foldl next s

def finishes : List Event → Shared → List Finish
  | [], _ => []
  | event :: events, s => (s.effect event).1.toList ++ finishes events (s.next event)

def file? (s : Shared) : Event → Option String
  | .lookup _ filename | .insert filename _ | .release filename => some filename
  | .read t _ | .keep t => (s.misses.get? t).map (·.filename)

def idle (c : Cache) : Shared := { cache := c }

inductive Follows (s : Shared) : Event → Option Finish → Shared → Prop
  | same (event : Event) : Follows s event none s
  | hit (t : Nat) {filename : String} {bytes : Bytes}
      (found : s.cache.lookup filename = some bytes) :
      Follows s (.lookup t filename) (some ⟨t, filename, s.clock, .ok bytes⟩) s
  | missed (t : Nat) {filename : String} (absent : s.cache.lookup filename = none) :
      Follows s (.lookup t filename) none
        { s with misses := s.misses.insert t ⟨filename, s.clock, none⟩ }
  | read {t : Nat} {filename : String} {since : Nat} (bytes : Bytes)
      (miss : s.misses.get? t = some ⟨filename, since, none⟩) :
      Follows s (.read t (.ok bytes)) none
        { s with
          cache := { s.cache with source := s.cache.source.counted }
          misses := s.misses.insert t ⟨filename, since, some bytes⟩ }
  | failed {t : Nat} {filename : String} {since : Nat} (e : AssetError)
      (miss : s.misses.get? t = some ⟨filename, since, none⟩) :
      Follows s (.read t (.error e)) (some ⟨t, filename, since, .error e⟩)
        { s with
          cache := { s.cache with source := s.cache.source.counted }
          misses := s.misses.erase t }
  | kept {t : Nat} {filename : String} {since : Nat} {bytes : Bytes}
      (miss : s.misses.get? t = some ⟨filename, since, some bytes⟩) :
      Follows s (.keep t) (some ⟨t, filename, since, .ok (s.cache.keepFirst filename bytes).1⟩)
        { s with
          cache := (s.cache.keepFirst filename bytes).2
          misses := s.misses.erase t }
  | insert (filename : String) (bytes : Bytes) :
      Follows s (.insert filename bytes) none { s with cache := s.cache.insert filename bytes }
  | release (filename : String) :
      Follows s (.release filename) none { s with cache := s.cache.release filename }

theorem follows (s : Shared) (event : Event) :
    s.Follows event (s.effect event).1 (s.effect event).2 := by
  cases event with
  | lookup t filename =>
    simp only [effect]
    split
    · exact .same _
    cases looked : s.cache.lookup filename with
    | some bytes => exact .hit t looked
    | none => exact .missed t looked
  | read t outcome =>
    simp only [effect]
    split
    next miss =>
      cases outcome with
      | ok bytes => exact .read bytes miss
      | error e => exact .failed e miss
    next => exact .same _
  | keep t =>
    simp only [effect]
    split
    next miss => exact .kept miss
    next => exact .same _
  | insert filename bytes => exact .insert filename bytes
  | release filename => exact .release filename

def call (s : Shared) (t : Nat) (filename : String) : List Event :=
  [.lookup t filename, .read t (s.cache.source.load filename), .keep t]

theorem callAlone (s : Shared) {t : Nat} (free : s.misses.get? t = none) (filename : String) :
    (s.run (s.call t filename)).cache = (s.cache.getOrLoad filename).2 ∧
      (finishes (s.call t filename) s).map (·.result) =
        [(s.cache.getOrLoad filename).1.result] := by
  have idle : s.misses.contains t = false := by simp [Dict.contains, free]
  cases held : s.cache.lookup filename with
  | some bytes =>
    simp [call, run, finishes, next, effect, idle, free, held, getOrLoad, Answer.result]
  | none =>
    cases read : s.cache.source.load filename with
    | ok bytes =>
      simp [call, run, finishes, next, effect, idle, held, read, getOrLoad, Answer.result,
        Dict.getInsert]
    | error e =>
      simp [call, run, finishes, next, effect, idle, held, read, getOrLoad, Answer.result,
        Dict.getInsert, Dict.getErase]

theorem lookupKept (c : Cache) (filename : String) (bytes : Bytes) (f : String) :
    (c.keepFirst filename bytes).2.lookup f =
      if f = filename then some (c.keepFirst filename bytes).1 else c.lookup f :=
  Dict.getInsertNew c.assets filename f bytes

def Pends (s : Shared) (t : Nat) (filename : String) (since : Nat) : Prop :=
  ∃ read, s.misses.get? t = some ⟨filename, since, read⟩

namespace Follows
variable {s t : Shared} {event : Event} {finish : Option Finish} {f : String}

theorem elsewhere (follows : s.Follows event finish t) (other : s.file? event ≠ some f) :
    t.cache.lookup f = s.cache.lookup f := by
  cases follows with
  | same | hit | missed | read | failed => rfl
  | kept miss =>
    rw [file?, miss] at other
    have different : ¬ f = _ := fun same => other (congrArg some same.symm)
    rw [lookupKept, if_neg different]
  | insert filename bytes =>
    have different : f ≠ filename := fun same => other (congrArg some same.symm)
    exact (Dict.getInsert s.cache.assets filename f bytes).trans (if_neg different)
  | release filename =>
    have different : f ≠ filename := fun same => other (congrArg some same.symm)
    exact (Dict.getErase s.cache.assets filename f).trans (if_neg different)

theorem holds (follows : s.Follows event finish t) (other : event.sets ≠ some f) {bytes : Bytes}
    (held : s.cache.lookup f = some bytes) : t.cache.lookup f = some bytes := by
  cases follows with
  | same | hit | missed | read | failed => exact held
  | @kept _ filename _ _ miss =>
    rw [lookupKept]
    split
    next same =>
      subst same
      rw [keepFirst, held, Option.getD_some]
    next => exact held
  | insert filename bytes => exact ((Follows.insert filename bytes).elsewhere other).trans held
  | release filename => exact ((Follows.release filename).elsewhere other).trans held

theorem answered {x : Finish} (follows : s.Follows event (some x) t) {bytes : Bytes}
    (fine : x.result = .ok bytes) : t.cache.lookup x.filename = some bytes := by
  cases follows with
  | hit _ found =>
    cases fine
    exact found
  | failed => cases fine
  | kept miss =>
    cases fine
    rw [lookupKept, if_pos rfl]

theorem failing {x : Finish} (follows : s.Follows event (some x) t) {e : AssetError}
    (fails : x.result = .error e) :
    event = .read x.thread (.error e) ∧ s.Pends x.thread x.filename x.since := by
  cases follows with
  | hit | kept => cases fails
  | failed e miss =>
    cases fails
    exact ⟨rfl, none, miss⟩

theorem pends (follows : s.Follows event finish t) {thread since : Nat}
    (pending : t.Pends thread f since) :
    s.Pends thread f since ∨
      event = .lookup thread f ∧ since = s.clock ∧ s.cache.lookup f = none := by
  obtain ⟨read, found⟩ := pending
  cases follows with
  | same | hit | insert | release => exact .inl ⟨read, found⟩
  | missed u absent =>
    rw [Dict.getInsert] at found
    split at found
    next same =>
      cases found
      exact .inr ⟨same ▸ rfl, rfl, absent⟩
    next => exact .inl ⟨read, found⟩
  | read bytes miss =>
    rw [Dict.getInsert] at found
    split at found
    next same =>
      cases found
      exact .inl ⟨none, same ▸ miss⟩
    next => exact .inl ⟨read, found⟩
  | failed e miss =>
    rw [Dict.getErase] at found
    split at found
    · cases found
    · exact .inl ⟨read, found⟩
  | kept miss =>
    rw [Dict.getErase] at found
    split at found
    · cases found
    · exact .inl ⟨read, found⟩

end Follows

theorem failedRead (s : Shared) (t : Nat) (e : AssetError) :
    (s.next (.read t (.error e))).cache.assets = s.cache.assets ∧
      ∀ filename since, s.misses.get? t = some ⟨filename, since, none⟩ →
        (s.effect (.read t (.error e))).1 = some ⟨t, filename, since, .error e⟩ ∧
          (s.next (.read t (.error e))).misses.get? t = none := by
  simp only [next, effect]
  split
  next filename since miss =>
    refine ⟨rfl, fun name step same => ?_⟩
    cases miss.symm.trans same
    exact ⟨rfl, (Dict.getErase s.misses t t).trans (if_pos rfl)⟩
  next other => exact ⟨rfl, fun filename since miss => (other filename since miss).elim⟩

/-! Runs. -/

section
variable {f : String} {events : List Event} (undisturbed : ∀ event ∈ events, event.sets ≠ some f)
include undisturbed

theorem finishesHeld {s : Shared} {bytes : Bytes} (held : s.cache.lookup f = some bytes)
    {x : Finish} (done : x ∈ finishes events s) (same : x.filename = f) :
    x.result = .ok bytes ∨ ∃ e, x.result = .error e ∧ .read x.thread (.error e) ∈ events ∧
      s.Pends x.thread f x.since := by
  induction events generalizing s with
  | nil => cases done
  | cons event events ih =>
    obtain ⟨other, others⟩ := List.forall_mem_cons.mp undisturbed
    have follows := s.follows event
    have still : (s.next event).cache.lookup f = some bytes := follows.holds other held
    rcases List.mem_append.mp done with now | later
    · rw [Option.mem_toList.mp now] at follows
      cases result : x.result with
      | ok a =>
        have kept := follows.answered result
        rw [same] at kept
        exact .inl (congrArg Except.ok (Option.some.inj (kept.symm.trans still)))
      | error e =>
        obtain ⟨rfl, pending⟩ := follows.failing result
        exact .inr ⟨e, rfl, List.mem_cons_self, same ▸ pending⟩
    · rcases ih others still later with fine | ⟨e, fails, read, pending⟩
      · exact .inl fine
      · refine .inr ⟨e, fails, List.mem_cons_of_mem _ read, ?_⟩
        rcases follows.pends pending with before | ⟨-, -, absent⟩
        · exact before
        · rw [held] at absent
          cases absent

theorem finishesAgree (s : Shared) :
    ∃ bytes, ∀ x ∈ finishes events s, x.filename = f → ∀ a, x.result = .ok a → a = bytes := by
  induction events generalizing s with
  | nil => exact ⟨[], fun _ done => (nomatch done)⟩
  | cons event events ih =>
    obtain ⟨other, others⟩ := List.forall_mem_cons.mp undisturbed
    have follows := s.follows event
    have first (x : Finish) (now : x ∈ (s.effect event).1.toList) (same : x.filename = f)
        (a : Bytes) (fine : x.result = .ok a) : (s.next event).cache.lookup f = some a := by
      have follows := s.follows event
      rw [Option.mem_toList.mp now] at follows
      exact same ▸ follows.answered fine
    -- The first call that answers leaves its copy, and from then on the copy is held.
    cases held : (s.next event).cache.lookup f with
    | some bytes =>
      refine ⟨bytes, fun x done same a fine => ?_⟩
      rcases List.mem_append.mp done with now | later
      · exact Option.some.inj ((first x now same a fine).symm.trans held)
      · rcases finishesHeld others held later same with kept | ⟨e, fails, -⟩
        · exact Except.ok.inj (fine.symm.trans kept)
        · cases fine.symm.trans fails
    | none =>
      obtain ⟨bytes, all⟩ := ih others (s.next event)
      refine ⟨bytes, fun x done same a fine => ?_⟩
      rcases List.mem_append.mp done with now | later
      · cases held.symm.trans (first x now same a fine)
      · exact all x later same a fine

end

structure Missed (c : Cache) (events : List Event) (t : Nat) (filename : String) (since : Nat) :
    Prop where
  looked : events[since]? = some (.lookup t filename)
  absent : ((idle c).run (events.take since)).cache.lookup filename = none

theorem Missed.later {c : Cache} {events : List Event} {t : Nat} {filename : String} {since : Nat}
    (missed : Missed c events t filename since) (event : Event) :
    Missed c (events ++ [event]) t filename since := by
  have inside := (List.getElem?_eq_some_iff.mp missed.looked).1
  refine ⟨(List.getElem?_append_left inside).trans missed.looked, ?_⟩
  rw [List.take_append_of_le_length (Nat.le_of_lt inside)]
  exact missed.absent

theorem clockRun (c : Cache) (events : List Event) :
    ((idle c).run events).clock = events.length := by
  induction events using List.reverseRecOn with
  | nil => rfl
  | append_singleton events event ih =>
    rw [run, List.foldl_append, List.length_append]
    exact congrArg (· + 1) ih

theorem pendsMissed {c : Cache} {events : List Event} {t : Nat} {filename : String} {since : Nat}
    (pending : ((idle c).run events).Pends t filename since) :
    Missed c events t filename since := by
  induction events using List.reverseRecOn with
  | nil =>
    obtain ⟨read, found⟩ := pending
    cases found
  | append_singleton events event ih =>
    rw [run, List.foldl_append] at pending
    have follows := ((idle c).run events).follows event
    rcases follows.pends pending with before | ⟨rfl, rfl, absent⟩
    · exact (ih before).later event
    · rw [clockRun]
      exact ⟨by simp, by simpa using absent⟩

theorem cacheCoherent (c : Cache) (before : List Event) (f : String) :
    let s := (idle c).run before
    (∀ t, s.misses.get? t = none →
      (s.run (s.call t f)).cache = (s.cache.getOrLoad f).2 ∧
        (finishes (s.call t f) s).map (·.result) = [(s.cache.getOrLoad f).1.result]) ∧
    (∀ events : List Event, (∀ event ∈ events, event.sets ≠ some f) →
      ∀ x ∈ finishes events s, ∀ y ∈ finishes events s, x.filename = f → y.filename = f →
        ∀ a b, x.result = .ok a → y.result = .ok b → a = b) ∧
    (∀ event : Event, event.sets = none → ∀ b, s.cache.lookup f = some b →
      (s.next event).cache.lookup f = some b) ∧
    (∀ (b : Bytes) (events : List Event), (∀ event ∈ events, event.sets ≠ some f) →
      ∀ x ∈ finishes events (s.next (.insert f b)), x.filename = f →
        x.result = .ok b ∨ ∃ e, x.result = .error e ∧ .read x.thread (.error e) ∈ events ∧
          Missed c before x.thread f x.since) ∧
    (∀ t e, (s.next (.read t (.error e))).cache.assets = s.cache.assets ∧
      ∀ since, s.misses.get? t = some ⟨f, since, none⟩ →
        (s.effect (.read t (.error e))).1 = some ⟨t, f, since, .error e⟩ ∧
          (s.next (.read t (.error e))).misses.get? t = none) ∧
    ∀ event, s.file? event ≠ some f → (s.next event).cache.lookup f = s.cache.lookup f := by
  intro s
  refine ⟨fun t free => s.callAlone free f,
    fun events undisturbed x doneX y doneY sameX sameY a b fineX fineY => ?_,
    fun event calls b held => ?_, fun b events undisturbed x done same => ?_, fun t e => ?_,
    fun event other => (s.follows event).elsewhere other⟩
  · obtain ⟨bytes, all⟩ := finishesAgree undisturbed s
    exact (all x doneX sameX a fineX).trans (all y doneY sameY b fineY).symm
  · exact (s.follows event).holds (by simp [calls]) held
  · have held : (s.next (.insert f b)).cache.lookup f = some b :=
      (Dict.getInsert s.cache.assets f f b).trans (if_pos rfl)
    rcases finishesHeld undisturbed held done same with fine | ⟨e, fails, read, pending⟩
    · exact .inl fine
    · exact .inr ⟨e, fails, read, pendsMissed pending⟩
  · obtain ⟨assets, ended⟩ := failedRead s t e
    exact ⟨assets, ended f⟩

theorem twoReadersCoherent :
    let c : Cache := { source := .memory {} 0 }
    let lost : AssetError := ⟨"cart.bin", .unknown⟩
    let before : List Event := [.lookup 1 "cart.bin", .lookup 2 "cart.bin", .read 1 (.ok [1])]
    let later : List Event :=
      [.read 2 (.error lost), .lookup 3 "bike.bin", .keep 1, .read 3 (.ok [3]),
        .lookup 2 "cart.bin", .keep 3]
    let s := (idle c).run before
    finishes later (s.next (.insert "cart.bin" [9])) =
        [⟨2, "cart.bin", 1, .error lost⟩, ⟨1, "cart.bin", 0, .ok [9]⟩,
          ⟨2, "cart.bin", 8, .ok [9]⟩, ⟨3, "bike.bin", 5, .ok [3]⟩] ∧
      Missed c before 2 "cart.bin" 1 := by
  intro c lost before later s
  have done : finishes later (s.next (.insert "cart.bin" [9])) =
      [⟨2, "cart.bin", 1, .error lost⟩, ⟨1, "cart.bin", 0, .ok [9]⟩,
        ⟨2, "cart.bin", 8, .ok [9]⟩, ⟨3, "bike.bin", 5, .ok [3]⟩] := by
    decide +kernel
  obtain ⟨-, -, -, inserted, -, -⟩ := cacheCoherent c before "cart.bin"
  have undisturbed : ∀ event ∈ later, event.sets ≠ some "cart.bin" := by decide +kernel
  have first := inserted [9] later undisturbed ⟨2, "cart.bin", 1, .error lost⟩
    (done ▸ List.mem_cons_self) rfl
  refine ⟨done, ?_⟩
  rcases first with fine | ⟨e, -, -, missed⟩
  · cases fine
  · exact missed

end Shared
end EntityFoundry.Cache
