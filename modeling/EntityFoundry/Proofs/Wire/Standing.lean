import EntityFoundry.Proofs.Wire.Skipping
import Mathlib.Data.List.Perm.Subperm
/-! Where what is read stands. The pieces of a value that was read stand in the bytes it was read
from, each in a place of its own: a sequence keeps the pieces of its elements and a record those of
its fields, whatever the order and the forms they came in. -/
namespace EntityFoundry.Wire

/-- Pieces that stand in some bytes side by side; in which order is not told. -/
inductive Stand {π : Type} (form : Bytes → π → Prop) : Bytes → List π → Prop
  | none (b : Bytes) : Stand form b []
  | one {b : Bytes} {p : π} (here : form b p) : Stand form b [p]
  | append {b c : Bytes} {ps qs : List π} (front : Stand form b ps) (back : Stand form c qs) :
      Stand form (b ++ c) (ps ++ qs)
  | fewer {b : Bytes} {ps qs : List π} (all : Stand form b ps) (among : qs.Subperm ps) :
      Stand form b qs

theorem Stand.each {π : Type} {form : Bytes → π → Prop} {b : Bytes} {ps : List π}
    (stand : Stand form b ps) : ∀ p ∈ ps, ∃ piece, piece <:+: b ∧ form piece p := by
  induction stand with
  | none => nofun
  | one here =>
    intro p member
    obtain rfl := List.mem_singleton.mp member
    exact ⟨_, List.infix_rfl, here⟩
  | @append b c _ _ _ _ first second =>
    intro p member
    rcases List.mem_append.mp member with inside | inside
    · obtain ⟨piece, place, held⟩ := first p inside
      exact ⟨piece, place.trans (List.prefix_append b c).isInfix, held⟩
    · obtain ⟨piece, place, held⟩ := second p inside
      exact ⟨piece, place.trans (List.suffix_append b c).isInfix, held⟩
  | fewer _ among ih => exact fun p member => ih p (among.subset member)

section Readers
variable {α β π : Type} {form : Bytes → π → Prop}

def Shows (form : Bytes → π → Prop) (x : Reader α) (pieces : α → List π) : Prop :=
  ∀ bytes a rest, x bytes = .ok (a, rest) →
    ∃ used, bytes = used ++ rest ∧ Stand form used (pieces a)

theorem Delimited.after {x : Reader α} (delimited : Delimited x) {f : α → Reader β}
    {pieces : β → List π} (next : ∀ a, Shows form (f a) pieces) : Shows form (x >>= f) pieces := by
  intro bytes b rest read
  obtain ⟨a, middle, first, last⟩ := bindParts read
  obtain ⟨used, rfl, -⟩ := delimited bytes a middle first
  obtain ⟨further, rfl, stand⟩ := next a middle b rest last
  exact ⟨used ++ further, (List.append_assoc ..).symm, .append (.none used) stand⟩

theorem Shows.throw {pieces : α → List π} (fault : Fault) :
    Shows form (MonadExcept.throw fault : Reader α) pieces := fun _ _ _ read => nomatch read

theorem Shows.lift {result : Except Fault α} {pieces : α → List π}
    (bare : ∀ a, result = .ok a → pieces a = []) : Shows form (liftM result) pieces := by
  intro bytes a rest read
  obtain ⟨rfl, rfl⟩ := liftParts read
  exact ⟨[], rfl, bare a rfl ▸ .none []⟩

theorem Shows.made {x : Reader α} {f : α → Reader β} {held : α → List π} {pieces : β → List π}
    (shows' : Shows form x held)
    (made : ∀ a bytes b rest, f a bytes = .ok (b, rest) →
      rest = bytes ∧ (pieces b).Subperm (held a)) : Shows form (x >>= f) pieces := by
  intro bytes b rest read
  obtain ⟨a, middle, first, last⟩ := bindParts read
  obtain ⟨used, rfl, stand⟩ := shows' bytes a middle first
  obtain ⟨rfl, among⟩ := made a middle b rest last
  exact ⟨used, rfl, stand.fewer among⟩

end Readers

/-! Targets. -/

structure Target.Shows {α π : Type} (form : Bytes → π → Prop) (t : Target α)
    (pieces : α → List π) : Prop where
  read : Wire.Shows form t.read pieces
  byte : ∀ b a, t.ofByte b = .ok a → pieces a = []

section Targets
variable {α π : Type} {form : Bytes → π → Prop} {t : Target α} {pieces : α → List π}

theorem manyShow {item : Reader α} (each : Shows form item pieces) (n : Nat) {seen xs : List α}
    {bytes rest : Bytes} (read : readMany item n seen bytes = .ok (xs, rest)) :
    ∃ used ys, bytes = used ++ rest ∧ xs = seen.reverse ++ ys ∧
      Stand form used (ys.flatMap pieces) := by
  induction n generalizing seen bytes with
  | zero =>
    cases read
    exact ⟨[], [], rfl, (List.append_nil _).symm, .none []⟩
  | succ n ih =>
    obtain ⟨x, middle, first, others⟩ := bindParts read
    obtain ⟨used, rfl, stand⟩ := each bytes x middle first
    obtain ⟨further, ys, rfl, rfl, later⟩ := ih others
    exact ⟨used ++ further, x :: ys, by simp, by simp, .append stand later⟩

theorem bytesBare {item : UInt8 → Except Fault α} (byte : ∀ b x, item b = .ok x → pieces x = [])
    {raw : Bytes} {xs : List α} (read : raw.mapM item = .ok xs) : xs.flatMap pieces = [] := by
  induction raw generalizing xs with
  | nil =>
    cases read
    rfl
  | cons b raw ih =>
    obtain ⟨x, ys, first, rest, rfl⟩ := listParts read
    rw [List.flatMap_cons, byte b x first, ih rest, List.append_nil]

namespace Target

theorem scalarShows (form : Bytes → π → Prop) (expected : String)
    (accept : Scalar → Except Fault α) : (scalar expected accept).Shows form fun _ => [] := by
  refine ⟨fun bytes a rest read => ?_, fun _ _ _ => rfl⟩
  obtain ⟨used, same, -⟩ := scalarDelimited expected accept bytes a rest read
  exact ⟨used, same, .none used⟩

theorem optionalShows (inner : t.Shows form pieces) :
    (optional t).Shows form fun found => found.toList.flatMap pieces := by
  refine ⟨fun bytes found rest read => ?_, fun _ _ refused => nomatch refused⟩
  change (if bytes.head? = some 0xc0 then .ok (none, bytes.tail) else (some <$> t.read) bytes) = _
    at read
  split at read
  next nil =>
    cases read
    obtain ⟨tail, rfl⟩ := List.head?_eq_some_iff.mp nil
    exact ⟨[0xc0], rfl, .none _⟩
  next =>
    obtain ⟨a, value, rfl⟩ := mapParts read
    obtain ⟨used, same, stand⟩ := inner.read bytes a rest value
    exact ⟨used, same, by simpa using stand⟩

theorem listShows (item : t.Shows form pieces) (room : Nat) :
    (list room t).Shows form fun xs => xs.flatMap pieces := by
  refine ⟨headDelimited.after fun head => ?_, fun _ _ refused => nomatch refused⟩
  cases head with
  | array n =>
    change Wire.Shows form
      (if room = 0 then MonadExcept.throw .depthLimit else readMany t.read n []) _
    split
    next => exact .throw _
    next =>
      intro bytes xs rest read
      obtain ⟨used, ys, same, rfl, stand⟩ := manyShow item.read n read
      exact ⟨used, same, stand⟩
  | binary raw => exact .lift fun xs read => bytesBare item.byte read
  | scalar | text | map | ext => exact .throw _

end Target
end Targets

/-! Records. -/

structure Slot.Shows {σ π : Type} (form : Bytes → π → Prop) (slot : Slot σ)
    (held : σ → List π) : Prop where
  read : ∀ s bytes put rest, slot.read bytes = .ok (put, rest) →
    ∃ used ps, bytes = used ++ rest ∧ Stand form used ps ∧ (held (put s)).Subperm (held s ++ ps)
  byte : ∀ s b put, slot.ofByte b = .ok put → (held (put s)).Subperm (held s)

theorem Slot.ofTargetShows {σ α π : Type} {form : Bytes → π → Prop} {held : σ → List π}
    {t : Target α} {pieces : α → List π} {put : α → σ → σ} (shows' : t.Shows form pieces)
    (name : String) (get : σ → Option α)
    (adds : ∀ a s, (held (put a s)).Subperm (held s ++ pieces a)) :
    (ofTarget name t get put).Shows form held := by
  refine ⟨fun s bytes change rest read => ?_, fun s b change read => ?_⟩
  · obtain ⟨a, value, rfl⟩ := mapParts read
    obtain ⟨used, same, stand⟩ := shows'.read bytes a rest value
    exact ⟨used, pieces a, same, stand, adds a s⟩
  · change put <$> t.ofByte b = .ok change at read
    cases value : t.ofByte b with
    | error fault =>
      rw [value] at read
      cases read
    | ok a =>
      rw [value] at read
      cases read
      have among := adds a s
      rwa [shows'.byte b a value, List.append_nil] at among

section Records
variable {σ τ π : Type} {form : Bytes → π → Prop} {held : σ → List π} {slots : List (Slot σ)}
  (each : ∀ slot ∈ slots, slot.Shows form held)
include each

theorem entriesShow (room k : Nat) {s u : σ} {bytes rest : Bytes}
    (read : Slot.readEntries room slots k s bytes = .ok (u, rest)) :
    ∃ used ps, bytes = used ++ rest ∧ Stand form used ps ∧ (held u).Subperm (held s ++ ps) := by
  induction k generalizing s bytes with
  | zero =>
    cases read
    exact ⟨[], [], rfl, .none [], (List.sublist_append_left _ _).subperm⟩
  | succ k ih =>
    obtain ⟨key, value, keyed, last⟩ := bindParts read
    obtain ⟨front, rfl, -⟩ := keyDelimited room bytes key value keyed
    cases found : Slot.find slots key with
    | none =>
      rw [found] at last
      obtain ⟨_, middle, skipped, others⟩ := bindParts last
      obtain ⟨past, rfl, -⟩ := skipDelimited room value () middle skipped
      obtain ⟨used, ps, rfl, stand, among⟩ := ih others
      exact ⟨front ++ (past ++ used), ps, by simp,
        .append (.none front) (.append (.none past) stand), among⟩
    | some slot =>
      simp only [found] at last
      split at last
      next => cases last
      next =>
        obtain ⟨put, middle, first, others⟩ := bindParts last
        obtain ⟨here, ps, rfl, stand, adds⟩ :=
          (each slot (Slot.findMem found)).read s value put middle first
        obtain ⟨used, qs, rfl, later, among⟩ := ih others
        have whole : Stand form (front ++ (here ++ used)) ([] ++ (ps ++ qs)) :=
          .append (.none front) (.append stand later)
        refine ⟨front ++ (here ++ used), ps ++ qs, by simp, whole, ?_⟩
        rw [← List.append_assoc]
        exact among.trans ((List.subperm_append_right qs).mpr adds)

theorem elementsShow (k : Nat) {s u : σ} {bytes rest : Bytes}
    (read : Slot.readElements slots k s bytes = .ok (u, rest)) :
    ∃ used ps, bytes = used ++ rest ∧ Stand form used ps ∧ (held u).Subperm (held s ++ ps) := by
  induction slots generalizing k s bytes with
  | nil =>
    cases read
    exact ⟨[], [], rfl, .none [], (List.sublist_append_left _ _).subperm⟩
  | cons slot slots ih =>
    cases k with
    | zero =>
      cases read
      exact ⟨[], [], rfl, .none [], (List.sublist_append_left _ _).subperm⟩
    | succ k =>
      obtain ⟨put, middle, first, others⟩ := bindParts read
      obtain ⟨here, others'⟩ := List.forall_mem_cons.mp each
      obtain ⟨front, ps, rfl, stand, adds⟩ := here.read s bytes put middle first
      obtain ⟨used, qs, rfl, later, among⟩ := ih others' k others
      refine ⟨front ++ used, ps ++ qs, by simp, .append stand later, ?_⟩
      rw [← List.append_assoc]
      exact among.trans ((List.subperm_append_right qs).mpr adds)

theorem bytesShow {raw : Bytes} {s u : σ} (filled : Slot.fillBytes slots raw s = .ok u) :
    (held u).Subperm (held s) := by
  induction slots generalizing raw s with
  | nil =>
    cases filled
    exact .refl _
  | cons slot slots ih =>
    cases raw with
    | nil =>
      cases filled
      exact .refl _
    | cons b raw =>
      obtain ⟨here, others⟩ := List.forall_mem_cons.mp each
      rw [Slot.fillBytes] at filled
      cases value : slot.ofByte b with
      | error fault =>
        rw [value] at filled
        cases filled
      | ok put =>
        rw [value] at filled
        exact (ih others filled).trans (here.byte s b put value)

omit each in
theorem Shape.targetShows {shape : Shape σ τ} {pieces : τ → List π} (held : σ → List π)
    (each : ∀ slot ∈ shape.slots, slot.Shows form held) (start : held shape.start = [])
    (finish : ∀ absent s x, shape.finish absent s = .ok x → (pieces x).Subperm (held s))
    (room : Nat) : (shape.target room).Shows form pieces := by
  refine ⟨headDelimited.after fun head => ?_, fun _ _ refused => nomatch refused⟩
  cases head with
  | array k =>
    change Wire.Shows form (if room = 0 then MonadExcept.throw .depthLimit else _) _
    split
    next => exact .throw _
    next =>
      have filled : Wire.Shows form (Slot.readElements shape.slots k shape.start) held := by
        intro bytes s rest read
        obtain ⟨used, ps, same, stand, among⟩ := elementsShow each k read
        rw [start] at among
        exact ⟨used, same, stand.fewer among⟩
      refine filled.made fun s bytes x rest read => ?_
      obtain ⟨y, middle, complete, last⟩ := bindParts read
      obtain ⟨rfl, made⟩ := liftParts complete
      split at last
      next => cases last
      next =>
        cases last
        exact ⟨rfl, finish _ s x made⟩
  | map k =>
    change Wire.Shows form (if room = 0 then MonadExcept.throw .depthLimit else _) _
    split
    next => exact .throw _
    next =>
      have filled :
          Wire.Shows form (Slot.readEntries (room - 1) shape.slots k shape.start) held := by
        intro bytes s rest read
        obtain ⟨used, ps, same, stand, among⟩ := entriesShow each (room - 1) k read
        rw [start] at among
        exact ⟨used, same, stand.fewer among⟩
      refine filled.made fun s bytes x rest read => ?_
      obtain ⟨rfl, made⟩ := liftParts read
      exact ⟨rfl, finish _ s x made⟩
  | binary raw =>
    intro bytes x rest read
    obtain ⟨s, middle, filled, complete⟩ := bindParts read
    obtain ⟨rfl, full⟩ := liftParts filled
    obtain ⟨rfl, made⟩ := liftParts complete
    have among := (finish _ s x made).trans (bytesShow each full)
    rw [start] at among
    exact ⟨[], rfl, .fewer (.none []) among⟩
  | scalar | text | ext => exact .throw _

end Records

end EntityFoundry.Wire
