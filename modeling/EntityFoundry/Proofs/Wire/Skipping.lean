import EntityFoundry.Proofs.Wire.Delimited
/-! What is read could have been passed over. Every target takes one item from the front, the bytes
that `skip` takes, whatever form the item has; and what can be skipped with some room can be skipped
with more. -/
namespace EntityFoundry.Wire

def skipAfter : (room : Nat) → Head → Reader Unit
  | 0, .array _ | 0, .map _ | 0, .ext _ => throw .depthLimit
  | room + 1, .array n => times n (skip room)
  | room + 1, .map n => times n do
    skip room
    skip room
  | _ + 1, .ext n => do
    let _ ← takeByte .shortNumber
    let _ ← takeBytes .shortContents n
  | _, _ => pure ()

theorem skipHeads (room : Nat) : skip room = readHead >>= skipAfter room := by
  cases room with
  | zero =>
    refine congrArg (readHead >>= ·) (funext fun head => ?_)
    cases head <;> rfl
  | succ room =>
    refine congrArg (readHead >>= ·) (funext fun head => ?_)
    cases head <;> rfl

theorem skipHead {bytes middle : Bytes} {head : Head} (read : readHead bytes = .ok (head, middle))
    (room : Nat) : skip room bytes = skipAfter room head middle := by
  rw [skipHeads]
  exact bindOk read

/-! More room does no harm. -/

section Times
variable {x y : Reader Unit} {bytes rest : Bytes}

theorem timesAgree (agree : ∀ bytes rest, x bytes = .ok ((), rest) → y bytes = .ok ((), rest))
    (n : Nat) (read : times n x bytes = .ok ((), rest)) : times n y bytes = .ok ((), rest) := by
  induction n generalizing bytes with
  | zero => exact read
  | succ n ih =>
    obtain ⟨_, middle, first, others⟩ := bindParts read
    exact (bindOk (agree bytes middle first)).trans (ih others)

theorem pairAgree (agree : ∀ bytes rest, x bytes = .ok ((), rest) → y bytes = .ok ((), rest))
    (read : (do x; x : Reader Unit) bytes = .ok ((), rest)) :
    (do y; y : Reader Unit) bytes = .ok ((), rest) := by
  obtain ⟨_, middle, first, second⟩ := bindParts read
  exact (bindOk (agree bytes middle first)).trans (agree middle rest second)

end Times

theorem skipSucc {room : Nat} {bytes rest : Bytes} (skipped : skip room bytes = .ok ((), rest)) :
    skip (room + 1) bytes = .ok ((), rest) := by
  induction room generalizing bytes rest with
  | zero =>
    rw [skipHeads] at skipped
    obtain ⟨head, middle, read, after⟩ := bindParts skipped
    rw [skipHead read]
    cases head with
    | scalar | text | binary => exact after
    | array | map | ext => cases after
  | succ room ih =>
    rw [skipHeads] at skipped
    obtain ⟨head, middle, read, after⟩ := bindParts skipped
    rw [skipHead read]
    cases head with
    | scalar | text | binary | ext => exact after
    | array n => exact timesAgree (fun _ _ => ih) n after
    | map n => exact timesAgree (fun _ _ => pairAgree fun _ _ => ih) n after

theorem skipMono {room more : Nat} (enough : room ≤ more) {bytes rest : Bytes}
    (skipped : skip room bytes = .ok ((), rest)) : skip more bytes = .ok ((), rest) := by
  induction enough with
  | refl => exact skipped
  | step _ ih => exact skipSucc ih

/-! Readers that take one item. -/

def TakesItem {α : Type} (room : Nat) (x : Reader α) : Prop :=
  ∀ bytes a rest, x bytes = .ok (a, rest) → skip room bytes = .ok ((), rest)

namespace TakesItem
variable {α β : Type} {room : Nat} {x : Reader α}

theorem throw (fault : Fault) : TakesItem room (MonadExcept.throw fault : Reader α) :=
  fun _ _ _ read => nomatch read

theorem headed {f : Head → Reader α}
    (after : ∀ head bytes a rest, f head bytes = .ok (a, rest) →
      skipAfter room head bytes = .ok ((), rest)) : TakesItem room (readHead >>= f) := by
  intro bytes a rest read
  obtain ⟨head, middle, start, last⟩ := bindParts read
  exact (skipHead start room).trans (after head middle a rest last)

theorem map (takes : TakesItem room x) (f : α → β) : TakesItem room (f <$> x) := by
  intro bytes b rest read
  obtain ⟨a, start, -⟩ := mapParts read
  exact takes bytes a rest start

end TakesItem

theorem skipMany {α : Type} {item : Reader α} {room : Nat} (takes : TakesItem room item) (n : Nat)
    {seen xs : List α} {bytes rest : Bytes} (read : readMany item n seen bytes = .ok (xs, rest)) :
    times n (skip room) bytes = .ok ((), rest) := by
  induction n generalizing seen bytes with
  | zero =>
    cases read
    rfl
  | succ n ih =>
    obtain ⟨a, middle, first, others⟩ := bindParts read
    exact (bindOk (takes bytes a middle first)).trans (ih others)

theorem liftParts {α : Type} {result : Except Fault α} {bytes rest : Bytes} {a : α}
    (read : (liftM result : Reader α) bytes = .ok (a, rest)) : rest = bytes ∧ result = .ok a := by
  cases result with
  | error fault => cases read
  | ok b =>
    cases read
    exact ⟨rfl, rfl⟩

theorem keyTakes (room : Nat) : TakesItem room (readKey room) := by
  refine .headed fun head bytes key rest read => ?_
  cases head with
  | text raw | binary raw =>
    cases read
    cases room <;> rfl
  | scalar s =>
    cases s with
    | int signed i =>
      cases signed with
      | false =>
        cases read
        cases room <;> rfl
      | true => cases read
    | nil | bool | single | double => cases read
  | array | map | ext => cases read

theorem readHeadScalar {m : Marker} {scalar : Reader Scalar} (starts : readScalar? m = some scalar)
    {bytes rest : Bytes} {s : Scalar} (read : scalar bytes = .ok (s, rest)) :
    readHeadAfter m bytes = .ok (.scalar s, rest) := by
  unfold readHeadAfter
  rw [starts]
  exact bindOk read

namespace Target
variable {α : Type} {t : Target α} {room : Nat}

theorem scalarTakes (expected : String) (accept : Scalar → Except Fault α) (room : Nat) :
    TakesItem room (scalar expected accept).read := by
  intro bytes a rest read
  obtain ⟨m, middle, marker, last⟩ := bindParts read
  have headed : readHead bytes = readHeadAfter m middle := bindOk marker
  cases starts : readScalar? m with
  | none =>
    rw [starts] at last
    cases last
  | some scalar =>
    rw [starts] at last
    obtain ⟨s, after, value, accepted⟩ := bindParts last
    rw [skipHead (headed.trans (readHeadScalar starts value))]
    cases verdict : accept s with
    | error fault =>
      rw [verdict] at accepted
      cases accepted
    | ok b =>
      rw [verdict] at accepted
      cases accepted
      cases room <;> rfl

theorem optionalTakes (takes : TakesItem room t.read) : TakesItem room (optional t).read := by
  intro bytes found rest read
  change (if bytes.head? = some 0xc0 then .ok (none, bytes.tail) else (some <$> t.read) bytes) = _
    at read
  split at read
  next nil =>
    cases read
    cases bytes with
    | nil => cases nil
    | cons b bytes =>
      obtain rfl := Option.some.inj nil
      have head : readHead (0xc0 :: bytes) = .ok (.scalar .nil, bytes) := rfl
      rw [skipHead head]
      cases room <;> rfl
  next => exact takes.map some bytes found rest read

theorem listTakes (takes : TakesItem (room - 1) t.read) : TakesItem room (list room t).read := by
  refine .headed fun head bytes xs rest read => ?_
  cases head with
  | array n =>
    cases room with
    | zero => cases read
    | succ room => exact skipMany takes n read
  | binary raw =>
    obtain ⟨rfl, -⟩ := liftParts read
    cases room <;> rfl
  | scalar | text | map | ext => cases read

end Target

/-! Records. -/

section Records
variable {σ τ : Type} {room : Nat} {slots : List (Slot σ)}
  (takes : ∀ slot ∈ slots, TakesItem room slot.read)
include takes

theorem skipEntries (n : Nat) {s u : σ} {bytes rest : Bytes}
    (read : Slot.readEntries room slots n s bytes = .ok (u, rest)) :
    times n (do skip room; skip room) bytes = .ok ((), rest) := by
  induction n generalizing s bytes with
  | zero =>
    cases read
    rfl
  | succ n ih =>
    obtain ⟨key, value, keyed, last⟩ := bindParts read
    have start := keyTakes room bytes key value keyed
    have goesOn {middle : Bytes} (skipped : skip room value = .ok ((), middle)) :
        (do skip room; skip room : Reader Unit) bytes = .ok ((), middle) :=
      (bindOk start).trans skipped
    cases found : Slot.find slots key with
    | none =>
      rw [found] at last
      obtain ⟨_, middle, skipped, others⟩ := bindParts last
      exact (bindOk (goesOn skipped)).trans (ih others)
    | some slot =>
      simp only [found] at last
      split at last
      next => cases last
      next =>
        obtain ⟨put, middle, first, others⟩ := bindParts last
        have skipped := takes slot (Slot.findMem found) value put middle first
        exact (bindOk (goesOn skipped)).trans (ih others)

theorem skipElements {n : Nat} (few : n ≤ slots.length) {s u : σ} {bytes rest : Bytes}
    (read : Slot.readElements slots n s bytes = .ok (u, rest)) :
    times n (skip room) bytes = .ok ((), rest) := by
  induction n generalizing slots s bytes with
  | zero =>
    cases slots <;>
      (cases read; rfl)
  | succ n ih =>
    cases slots with
    | nil => cases few
    | cons slot slots =>
      obtain ⟨put, middle, first, others⟩ := bindParts read
      have start := takes slot (by simp) bytes put middle first
      refine (bindOk start).trans (ih (fun slot member => takes slot (by simp [member])) ?_ others)
      exact Nat.le_of_succ_le_succ few

end Records

theorem Shape.targetTakes {σ τ : Type} {shape : Shape σ τ} {room : Nat}
    (takes : ∀ slot ∈ shape.slots, TakesItem (room - 1) slot.read) :
    TakesItem room (shape.target room).read := by
  refine .headed fun head bytes x rest read => ?_
  cases head with
  | array n =>
    cases room with
    | zero => cases read
    | succ room =>
      obtain ⟨s, middle, elements, last⟩ := bindParts read
      obtain ⟨y, after, finished, final⟩ := bindParts last
      obtain ⟨rfl, -⟩ := liftParts finished
      split at final
      next => cases final
      next few =>
        cases final
        exact skipElements takes (Nat.le_of_not_lt few) elements
  | map n =>
    cases room with
    | zero => cases read
    | succ room =>
      obtain ⟨s, middle, entries, finished⟩ := bindParts read
      obtain ⟨rfl, -⟩ := liftParts finished
      exact skipEntries takes n entries
  | binary raw =>
    obtain ⟨s, middle, filled, finished⟩ := bindParts read
    obtain ⟨rfl, -⟩ := liftParts filled
    obtain ⟨rfl, -⟩ := liftParts finished
    cases room <;> rfl
  | scalar | text | ext => cases read

end EntityFoundry.Wire
