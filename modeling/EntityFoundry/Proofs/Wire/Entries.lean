import EntityFoundry.Proofs.Wire.Forms
import Mathlib.Data.List.Pairwise
/-! The entries of a record, whatever their order. Fields are filled one by one and apart from each
other, so the order of a map's entries does not matter, and neither does an entry of an unknown
name. -/
namespace EntityFoundry.Wire

def WellFormed (b : Bytes) : Prop := ∃ room, Item room b

structure OneItem {α : Type} (room : Nat) (x : Reader α) : Prop where
  takes : TakesItem room x
  delimited : Delimited x

namespace OneItem
variable {α β : Type} {room : Nat} {x : Reader α} {b rest after : Bytes}

theorem skip (room : Nat) : OneItem room (Wire.skip room) := ⟨fun _ _ _ read => read, skipDelimited room⟩

theorem key (room : Nat) : OneItem room (readKey room) := ⟨keyTakes room, keyDelimited room⟩

theorem parts (one : OneItem room x) (item : WellFormed b) {a : α}
    (read : x (b ++ rest) = .ok (a, after)) : after = rest ∧ ReadsAs x b a := by
  obtain ⟨_, item⟩ := item
  obtain rfl := item.ends (one.takes _ a after read)
  obtain ⟨used, same, reads⟩ := one.delimited _ a after read
  obtain rfl := List.append_cancel_right same
  exact ⟨rfl, reads⟩

theorem bindParts (one : OneItem room x) (item : WellFormed b) {f : α → Reader β} {d : β}
    (read : (x >>= f) (b ++ rest) = .ok (d, after)) :
    ∃ a, ReadsAs x b a ∧ f a rest = .ok (d, after) := by
  obtain ⟨a, middle, first, last⟩ := Wire.bindParts read
  obtain ⟨rfl, reads⟩ := one.parts item first
  exact ⟨a, reads, last⟩

end OneItem

/-! Items one after another. -/

section Many
variable {α : Type} {room : Nat} {item : Reader α} (one : OneItem room item)

include one in
theorem manyParts {items : List Bytes} (wellFormed : ∀ b ∈ items, WellFormed b) {seen xs : List α}
    {rest after : Bytes}
    (read : readMany item items.length seen (items.flatten ++ rest) = .ok (xs, after)) :
    ∃ ys, after = rest ∧ xs = seen.reverse ++ ys ∧ List.Forall₂ (ReadsAs item) items ys := by
  induction items generalizing seen with
  | nil =>
    cases read
    exact ⟨[], rfl, (List.append_nil _).symm, .nil⟩
  | cons b items ih =>
    obtain ⟨first, others⟩ := List.forall_mem_cons.mp wellFormed
    rw [List.flatten_cons, List.append_assoc] at read
    obtain ⟨a, reads, last⟩ := one.bindParts first read
    obtain ⟨ys, same, rfl, each⟩ := ih others last
    exact ⟨a :: ys, same, by simp, .cons reads each⟩

theorem manyReads {items : List Bytes} {ys : List α}
    (each : List.Forall₂ (ReadsAs item) items ys) (seen : List α) :
    ReadsAs (readMany item items.length seen) items.flatten (seen.reverse ++ ys) := by
  induction each generalizing seen with
  | nil =>
    intro rest
    rw [List.append_nil]
    rfl
  | @cons b y items ys first _ ih =>
    have later := ih (y :: seen)
    rw [List.reverse_cons, List.append_assoc, List.singleton_append] at later
    exact first.bind later

end Many

theorem itemsFit {room : Nat} {items : List Bytes} (wellFormed : ∀ b ∈ items, WellFormed b)
    {rest after : Bytes}
    (skipped : times items.length (skip room) (items.flatten ++ rest) = .ok ((), after)) :
    ∀ b ∈ items, Item room b := by
  induction items with
  | nil => nofun
  | cons b items ih =>
    obtain ⟨first, others⟩ := List.forall_mem_cons.mp wellFormed
    rw [List.flatten_cons, List.append_assoc] at skipped
    obtain ⟨_, skips, last⟩ := (OneItem.skip room).bindParts first skipped
    exact List.forall_mem_cons.mpr ⟨itemIffSkips.mpr skips, ih others last⟩

/-! Entries. -/

abbrev Member := Bytes × Bytes

def Member.WellFormed (e : Member) : Prop := Wire.WellFormed e.1 ∧ Wire.WellFormed e.2

def spellEntries (es : List Member) : Bytes := es.flatMap fun e => e.1 ++ e.2

theorem entriesFit {room : Nat} {es : List Member} (wellFormed : ∀ e ∈ es, e.WellFormed)
    {rest after : Bytes}
    (skipped : times es.length (do skip room; skip room) (spellEntries es ++ rest) =
      .ok ((), after)) : ∀ e ∈ es, Item room e.2 := by
  induction es with
  | nil => nofun
  | cons e es ih =>
    obtain ⟨⟨key, value⟩, others⟩ := List.forall_mem_cons.mp wellFormed
    have split : spellEntries (e :: es) ++ rest = e.1 ++ (e.2 ++ (spellEntries es ++ rest)) := by
      simp [spellEntries]
    rw [split] at skipped
    obtain ⟨_, middle, pair, last⟩ := bindParts skipped
    obtain ⟨_, _, skipped⟩ := (OneItem.skip room).bindParts key pair
    obtain ⟨rfl, skips⟩ := (OneItem.skip room).parts value skipped
    exact List.forall_mem_cons.mpr ⟨itemIffSkips.mpr skips, ih others last⟩

section Filling
variable {σ : Type} {room : Nat} {slots : List (Slot σ)}

inductive Fill (room : Nat) (slots : List (Slot σ)) (e : Member) (s : σ) : σ → Prop
  | unknown {key : Key} (keyed : ReadsAs (readKey room) e.1 key)
      (absent : Slot.find slots key = none) (skips : ReadsAs (skip room) e.2 ()) :
      Fill room slots e s s
  | known {key : Key} {slot : Slot σ} {put : σ → σ} (keyed : ReadsAs (readKey room) e.1 key)
      (found : Slot.find slots key = some slot) (free : slot.filled s = false)
      (reads : ReadsAs slot.read e.2 put) : Fill room slots e s (put s)

inductive Fills (room : Nat) (slots : List (Slot σ)) : List Member → σ → σ → Prop
  | nil {s : σ} : Fills room slots [] s s
  | cons {e : Member} {es : List Member} {s w u : σ} (first : Fill room slots e s w)
      (later : Fills room slots es w u) : Fills room slots (e :: es) s u

theorem Fills.reads {es : List Member} {s u : σ} (fills : Fills room slots es s u) :
    ReadsAs (Slot.readEntries room slots es.length s) (spellEntries es) u := by
  induction fills with
  | nil => exact fun rest => rfl
  | @cons e es s w u first _ ih =>
    rw [spellEntries, List.flatMap_cons, List.append_assoc]
    cases first with
    | unknown keyed absent skips =>
      refine keyed.bind ?_
      simp only [absent]
      exact skips.bind ih
    | known keyed found free reads =>
      refine keyed.bind ?_
      simp only [found, free, Bool.false_eq_true, if_false]
      exact reads.bind ih

theorem Fills.ofRead (one : ∀ slot ∈ slots, OneItem room slot.read) {es : List Member}
    (wellFormed : ∀ e ∈ es, e.WellFormed) {s u : σ} {rest after : Bytes}
    (read : Slot.readEntries room slots es.length s (spellEntries es ++ rest) = .ok (u, after)) :
    after = rest ∧ Fills room slots es s u := by
  induction es generalizing s with
  | nil =>
    cases read
    exact ⟨rfl, .nil⟩
  | cons e es ih =>
    obtain ⟨⟨key, value⟩, others⟩ := List.forall_mem_cons.mp wellFormed
    have split : spellEntries (e :: es) ++ rest = e.1 ++ (e.2 ++ (spellEntries es ++ rest)) := by
      simp [spellEntries]
    rw [split] at read
    obtain ⟨k, keyed, last⟩ := (OneItem.key room).bindParts key read
    cases found : Slot.find slots k with
    | none =>
      rw [found] at last
      obtain ⟨_, skips, last⟩ := (OneItem.skip room).bindParts value last
      obtain ⟨same, fills⟩ := ih others last
      exact ⟨same, .cons (.unknown keyed found skips) fills⟩
    | some slot =>
      simp only [found] at last
      split at last
      next => cases last
      next free =>
        obtain ⟨put, reads, last⟩ := (one slot (Slot.findMem found)).bindParts value last
        obtain ⟨same, fills⟩ := ih others last
        exact ⟨same, .cons (.known keyed found (Bool.eq_false_iff.mpr free) reads) fills⟩

theorem Fills.append {es fs : List Member} {s w u : σ} (first : Fills room slots es s w)
    (second : Fills room slots fs w u) : Fills room slots (es ++ fs) s u := by
  induction first with
  | nil => exact second
  | cons one _ ih => exact .cons one (ih second)

theorem Fills.split {es fs : List Member} {s u : σ} (fills : Fills room slots (es ++ fs) s u) :
    ∃ w, Fills room slots es s w ∧ Fills room slots fs w u := by
  induction es generalizing s with
  | nil => exact ⟨s, .nil, fills⟩
  | cons e es ih =>
    cases fills with
    | cons first later =>
      obtain ⟨w, front, back⟩ := ih later
      exact ⟨w, .cons first front, back⟩

def Slot.Apart (p q : Slot σ) : Prop :=
  ∀ ⦃b c b' c' : Bytes⦄ ⦃f g : σ → σ⦄, p.read b = .ok (f, b') → q.read c = .ok (g, c') → ∀ s,
    p.filled (g s) = p.filled s ∧ q.filled (f s) = q.filled s ∧ f (g s) = g (f s)

theorem Slot.Apart.symm {p q : Slot σ} (apart : p.Apart q) : q.Apart p := by
  intro b c b' c' f g first second s
  obtain ⟨one, other, commute⟩ := apart second first s
  exact ⟨other, one, commute.symm⟩

instance : Std.Symm (Slot.Apart : Slot σ → Slot σ → Prop) := ⟨fun _ _ => Slot.Apart.symm⟩

def Slot.Filling (slot : Slot σ) : Prop :=
  ∀ ⦃b c : Bytes⦄ ⦃put : σ → σ⦄, slot.read b = .ok (put, c) → ∀ s, slot.filled (put s) = true

structure Slot.Independent (slots : List (Slot σ)) : Prop where
  filling : ∀ slot ∈ slots, slot.Filling
  apart : slots.Pairwise Slot.Apart

theorem ReadsAs.read {α : Type} {x : Reader α} {b : Bytes} {a : α} (reads : ReadsAs x b a) :
    x b = .ok (a, []) := by
  have read := reads []
  rwa [List.append_nil] at read

section Order
variable (independent : Slot.Independent slots)
include independent

theorem Fill.swap {e f : Member} {s w u : σ} (first : Fill room slots e s w)
    (second : Fill room slots f w u) : ∃ v, Fill room slots f s v ∧ Fill room slots e v u := by
  cases first with
  | unknown keyed absent skips => exact ⟨u, second, .unknown keyed absent skips⟩
  | @known _ p put keyed found free reads =>
    cases second with
    | unknown keyed' absent' skips' =>
      exact ⟨s, .unknown keyed' absent' skips', .known keyed found free reads⟩
    | @known _ q next keyed' found' free' reads' =>
      have inside := Slot.findMem found
      have different : p ≠ q := by
        rintro rfl
        rw [independent.filling p inside reads.read] at free'
        cases free'
      have apart := independent.apart.forall inside (Slot.findMem found') different
      obtain ⟨keepsFirst, keepsSecond, commute⟩ := apart reads.read reads'.read s
      rw [keepsSecond] at free'
      rw [← commute]
      exact ⟨next s, .known keyed' found' free' reads',
        .known keyed found (keepsFirst.trans free) reads⟩

theorem Fills.perm {es fs : List Member} (permuted : es.Perm fs) {s u : σ}
    (fills : Fills room slots es s u) : Fills room slots fs s u := by
  induction permuted generalizing s with
  | nil => exact fills
  | cons e _ ih =>
    cases fills with
    | cons first later => exact .cons first (ih later)
  | swap e f es =>
    cases fills with
    | cons first later =>
      cases later with
      | cons second later =>
        obtain ⟨v, sooner, then'⟩ := first.swap independent second
        exact .cons sooner (.cons then' later)
  | trans _ _ ih ih' => exact ih' (ih fills)

end Order

/-! Keys, and the slots they name. -/

inductive SpellsKey : Bytes → Key → Prop
  | text {b raw : Bytes} (spelled : Spells b (.text raw)) : SpellsKey b (.name raw)
  | binary {b raw : Bytes} (spelled : Spells b (.binary raw)) : SpellsKey b (.name raw)
  | position {b : Bytes} {n : Nat} (spelled : Spells b (.scalar (.int false n))) :
      SpellsKey b (.position n)

theorem SpellsKey.wellFormed {b : Bytes} {key : Key} (spelled : SpellsKey b key) :
    Wire.WellFormed b := by
  cases spelled with
  | text spelled => exact ⟨0, .text spelled⟩
  | binary spelled => exact ⟨0, .binary spelled⟩
  | position spelled => exact ⟨0, .scalar spelled⟩

theorem SpellsKey.reads {b : Bytes} {key : Key} (spelled : SpellsKey b key) (room : Nat) :
    ReadsAs (readKey room) b key := by
  intro rest
  cases spelled with
  | text spelled | binary spelled | position spelled => exact bindOk (spelled.reads rest)

theorem fillUnknown {e : Member} {key : Key} (keyed : SpellsKey e.1 key)
    (absent : Slot.find slots key = none) (fits : Item room e.2) (s : σ) :
    Fill room slots e s s := .unknown (keyed.reads room) absent fits.skips

theorem fillNamed {α : Type} {e : Member} {key : Key} (keyed : SpellsKey e.1 key) {name : String}
    {t : Target α} (delimited : Delimited t.read) {get : σ → Option α} {put : α → σ → σ}
    (found : Slot.find slots key = some (.ofTarget name t get put)) {s u : σ} :
    Fill room slots e s u ↔ get s = none ∧ ∃ x, ReadsAs t.read e.2 x ∧ u = put x s := by
  have same {other : Key} (read : ReadsAs (readKey room) e.1 other) : other = key := by
    cases (read []).symm.trans (keyed.reads room [])
    rfl
  constructor
  · intro fill
    cases fill with
    | unknown read absent =>
      obtain rfl := same read
      rw [found] at absent
      cases absent
    | known read known free reads =>
      obtain rfl := same read
      cases found.symm.trans known
      obtain ⟨x, value, rfl⟩ := mapParts reads.read
      exact ⟨by simpa [Slot.ofTarget] using free, x, delimited.extend value, rfl⟩
  · rintro ⟨free, x, reads, rfl⟩
    exact .known (keyed.reads room) found (by simp [Slot.ofTarget, free]) fun rest => mapOk (reads rest)

theorem Slot.ofTargetApart {α β : Type} {a b : String} {t : Target α} {u : Target β}
    {get : σ → Option α} {get' : σ → Option β} {put : α → σ → σ} {put' : β → σ → σ}
    (keeps : ∀ y s, get (put' y s) = get s) (keeps' : ∀ x s, get' (put x s) = get' s)
    (commute : ∀ x y s, put x (put' y s) = put' y (put x s)) :
    Apart (ofTarget a t get put) (ofTarget b u get' put') := by
  intro _ _ _ _ f g first second s
  obtain ⟨x, -, rfl⟩ := mapParts first
  obtain ⟨y, -, rfl⟩ := mapParts second
  exact ⟨congrArg Option.isSome (keeps y s), congrArg Option.isSome (keeps' x s), commute x y s⟩

theorem Slot.ofTargetFilling {α : Type} {a : String} {t : Target α} {get : σ → Option α}
    {put : α → σ → σ} (gets : ∀ x s, get (put x s) = some x) :
    (ofTarget a t get put).Filling := by
  intro b c f read s
  obtain ⟨x, -, rfl⟩ := mapParts read
  exact congrArg Option.isSome (gets x s)

end Filling

end EntityFoundry.Wire
