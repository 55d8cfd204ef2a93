import EntityFoundry.Proofs.Wire.Entries
import Mathlib.Data.List.Forall2
/-! Records and sequences that are changed where it does not show: entries in another order, some of
them changed, some left out and some new. What a record with harmless changes of its entries read
as, it still reads as, if there is room for it. -/
namespace EntityFoundry.Wire

inductive MapRevised (changed : Member → Member → Prop) (omissible added : Member → Prop) :
    Bytes → Bytes → Prop
  | map {h g : Bytes} {es fs kept omitted revised inserted : List Member}
      (old : Spells h (.map es.length)) (new : Spells g (.map fs.length))
      (before : es.Perm (kept ++ omitted)) (after : fs.Perm (revised ++ inserted))
      (changes : List.Forall₂ changed kept revised) (omissions : ∀ e ∈ omitted, omissible e)
      (additions : ∀ e ∈ inserted, added e) :
      MapRevised changed omissible added (h ++ spellEntries es) (g ++ spellEntries fs)

inductive ListRevised (changed : Bytes → Bytes → Prop) : Bytes → Bytes → Prop
  | array {h : Bytes} {items revised : List Bytes} (spelled : Spells h (.array items.length))
      (changes : List.Forall₂ changed items revised) :
      ListRevised changed (h ++ items.flatten) (h ++ revised.flatten)

theorem commonRoom {items : List Bytes} (wellFormed : ∀ b ∈ items, WellFormed b) :
    ∃ room, ∀ b ∈ items, Item room b := by
  induction items with
  | nil => exact ⟨0, nofun⟩
  | cons b items ih =>
    obtain ⟨⟨room, item⟩, others⟩ := List.forall_mem_cons.mp wellFormed
    obtain ⟨more, each⟩ := ih others
    exact ⟨max room more, List.forall_mem_cons.mpr ⟨item.mono (Nat.le_max_left _ _),
      fun c member => (each c member).mono (Nat.le_max_right _ _)⟩⟩

theorem arrayWellFormed {h : Bytes} {items : List Bytes} (spelled : Spells h (.array items.length))
    (wellFormed : ∀ b ∈ items, WellFormed b) : WellFormed (h ++ items.flatten) := by
  obtain ⟨room, each⟩ := commonRoom wellFormed
  exact ⟨room + 1, .array spelled each⟩

theorem mapWellFormed {h : Bytes} {es : List Member} (spelled : Spells h (.map es.length))
    (wellFormed : ∀ e ∈ es, e.WellFormed) : WellFormed (h ++ spellEntries es) := by
  obtain ⟨room, keys⟩ := commonRoom <| List.forall_mem_map.mpr fun e member =>
    (wellFormed e member).1
  obtain ⟨more, values⟩ := commonRoom <| List.forall_mem_map.mpr fun e member =>
    (wellFormed e member).2
  refine ⟨max room more + 1, .map spelled (fun e member => ?_) fun e member => ?_⟩
  · exact (keys _ (List.mem_map_of_mem member)).mono (Nat.le_max_left _ _)
  · exact (values _ (List.mem_map_of_mem member)).mono (Nat.le_max_right _ _)

theorem Spells.after {α : Type} {h b : Bytes} {head : Head} {f : Head → Reader α} {a : α}
    (spelled : Spells h head) (reads : ReadsAs (readHead >>= f) (h ++ b) a) :
    ReadsAs (f head) b a := by
  intro rest
  rw [← reads rest, List.append_assoc]
  exact (bindOk (spelled.reads (b ++ rest))).symm

theorem Spells.itemAfter {h b : Bytes} {head : Head} {room : Nat} (spelled : Spells h head)
    (item : Item room (h ++ b)) : ReadsAs (skipAfter room head) b () := by
  have skips := item.skips
  rw [skipHeads] at skips
  exact spelled.after skips

def Whole (changed : Bytes → Bytes → Prop) : Prop :=
  ∀ b c, changed b c → WellFormed b ∧ WellFormed c

theorem forall₂Left {α β : Type} {R : α → β → Prop} {p : α → Prop} {as : List α} {bs : List β}
    (related : List.Forall₂ R as bs) (each : ∀ a b, R a b → p a) : ∀ a ∈ as, p a := by
  induction related with
  | nil => nofun
  | cons first _ ih => exact List.forall_mem_cons.mpr ⟨each _ _ first, ih⟩

theorem forall₂Right {α β : Type} {R : α → β → Prop} {p : β → Prop} {as : List α} {bs : List β}
    (related : List.Forall₂ R as bs) (each : ∀ a b, R a b → p b) : ∀ b ∈ bs, p b :=
  forall₂Left related.flip fun b a => each a b

theorem ListRevised.whole {changed : Bytes → Bytes → Prop} (whole : Whole changed) :
    Whole (ListRevised changed) := by
  rintro _ _ ⟨spelled, changes⟩
  have before := forall₂Left changes fun b c change => (whole b c change).1
  have after := forall₂Right changes fun b c change => (whole b c change).2
  refine ⟨arrayWellFormed spelled before, arrayWellFormed ?_ after⟩
  rwa [← changes.length_eq]

structure Kept {α : Type} (room : Nat) (x : Reader α) (changed : Bytes → Bytes → Prop) : Prop where
  whole : Whole changed
  reads : ∀ b c a, changed b c → ReadsAs x b a → Item room c → ReadsAs x c a

theorem Kept.many {α : Type} {room : Nat} {x : Reader α} {changed : Bytes → Bytes → Prop}
    (kept : Kept room x changed) {items revised : List Bytes} {ys : List α}
    (changes : List.Forall₂ changed items revised) (each : List.Forall₂ (ReadsAs x) items ys)
    (fits : ∀ c ∈ revised, Item room c) : List.Forall₂ (ReadsAs x) revised ys := by
  induction changes generalizing ys with
  | nil =>
    cases each
    exact .nil
  | cons change _ ih =>
    cases each with
    | cons first others =>
      obtain ⟨fit, fitting⟩ := List.forall_mem_cons.mp fits
      exact .cons (kept.reads _ _ _ change first fit) (ih others fitting)

theorem Kept.list {α : Type} {room : Nat} {item : Target α} {changed : Bytes → Bytes → Prop}
    (kept : Kept (room - 1) item.read changed) (one : OneItem (room - 1) item.read) :
    Kept room (Target.list room item).read (ListRevised changed) := by
  refine ⟨ListRevised.whole kept.whole, ?_⟩
  rintro _ _ xs ⟨spelled, changes⟩ reads fits
  have opened := spelled.after reads
  cases room with
  | zero => cases opened []
  | succ room =>
    have before := forall₂Left changes fun b c change => (kept.whole b c change).1
    have after := forall₂Right changes fun b c change => (kept.whole b c change).2
    obtain ⟨ys, -, rfl, each⟩ := manyParts one before (opened [])
    have skipped := spelled.itemAfter fits
    rw [changes.length_eq] at skipped
    have revised := manyReads (kept.many changes each (itemsFit after (skipped []))) []
    rw [← changes.length_eq] at revised
    exact spelled.reads.bind revised

theorem Kept.fill {α σ : Type} {room : Nat} {slots : List (Slot σ)} {t : Target α}
    {changed : Bytes → Bytes → Prop} (kept : Kept room t.read changed)
    (delimited : Delimited t.read) {k v w : Bytes} {key : Key} (keyed : SpellsKey k key)
    {name : String} {get : σ → Option α} {put : α → σ → σ}
    (found : Slot.find slots key = some (.ofTarget name t get put)) (change : changed v w)
    (fits : Item room w) {s u : σ} (fill : Fill room slots (k, v) s u) :
    Fill room slots (k, w) s u := by
  obtain ⟨free, x, reads, rfl⟩ := (fillNamed keyed delimited found).mp fill
  exact (fillNamed keyed delimited found).mpr ⟨free, x, kept.reads v w x change reads fits, rfl⟩

section Records
variable {σ τ : Type} {shape : Shape σ τ} {room : Nat} {changed : Member → Member → Prop}
  {omissible added : Member → Prop}

structure Shape.Tolerates (shape : Shape σ τ) (room : Nat) (changed : Member → Member → Prop)
    (omissible added : Member → Prop) : Prop where
  changedWhole : ∀ e f, changed e f → e.WellFormed ∧ f.WellFormed
  omittedWhole : ∀ e, omissible e → e.WellFormed
  addedWhole : ∀ e, added e → e.WellFormed
  change : ∀ e f, changed e f → Item room f.2 → ∀ s u, Fill room shape.slots e s u →
    Fill room shape.slots f s u
  omission : ∀ e, omissible e → ∀ s u, Fill room shape.slots e s u →
    shape.finish .missingField u = shape.finish .missingField s
  addition : ∀ e, added e → Item room e.2 → ∀ s, Fill room shape.slots e s s

namespace Shape.Tolerates
variable (tolerates : shape.Tolerates room changed omissible added)
include tolerates

theorem changes {es fs : List Member} (changes : List.Forall₂ changed es fs)
    (fits : ∀ f ∈ fs, Item room f.2) {s u : σ} (fills : Fills room shape.slots es s u) :
    Fills room shape.slots fs s u := by
  induction changes generalizing s with
  | nil => exact fills
  | cons change _ ih =>
    obtain ⟨fit, fitting⟩ := List.forall_mem_cons.mp fits
    cases fills with
    | cons first later =>
      exact .cons (tolerates.change _ _ change fit _ _ first) (ih fitting later)

theorem omissions {es : List Member} (omissions : ∀ e ∈ es, omissible e) {s u : σ}
    (fills : Fills room shape.slots es s u) :
    shape.finish .missingField u = shape.finish .missingField s := by
  induction fills with
  | nil => rfl
  | cons first _ ih =>
    obtain ⟨one, others⟩ := List.forall_mem_cons.mp omissions
    exact (ih others).trans (tolerates.omission _ one _ _ first)

theorem additions {es : List Member} (additions : ∀ e ∈ es, added e)
    (fits : ∀ e ∈ es, Item room e.2) (s : σ) : Fills room shape.slots es s s := by
  induction es with
  | nil => exact .nil
  | cons e es ih =>
    obtain ⟨one, others⟩ := List.forall_mem_cons.mp additions
    obtain ⟨fit, fitting⟩ := List.forall_mem_cons.mp fits
    exact .cons (tolerates.addition e one fit s) (ih others fitting)

theorem wholeBefore {es kept omitted revised : List Member} (before : es.Perm (kept ++ omitted))
    (changes : List.Forall₂ changed kept revised) (omissions : ∀ e ∈ omitted, omissible e) :
    ∀ e ∈ es, e.WellFormed := by
  intro e member
  rcases List.mem_append.mp (before.mem_iff.mp member) with stays | goes
  · exact forall₂Left changes (fun e f change => (tolerates.changedWhole e f change).1) e stays
  · exact tolerates.omittedWhole e (omissions e goes)

theorem wholeAfter {fs kept revised inserted : List Member} (after : fs.Perm (revised ++ inserted))
    (changes : List.Forall₂ changed kept revised) (additions : ∀ e ∈ inserted, added e) :
    ∀ e ∈ fs, e.WellFormed := by
  intro e member
  rcases List.mem_append.mp (after.mem_iff.mp member) with stays | comes
  · exact forall₂Right changes (fun e f change => (tolerates.changedWhole e f change).2) e stays
  · exact tolerates.addedWhole e (additions e comes)

omit tolerates in
theorem kept (tolerates : shape.Tolerates (room - 1) changed omissible added)
    (independent : Slot.Independent shape.slots)
    (one : ∀ slot ∈ shape.slots, OneItem (room - 1) slot.read) :
    Kept room (shape.target room).read (MapRevised changed omissible added) := by
  refine ⟨?_, ?_⟩
  · rintro _ _ ⟨old, new, before, after, changes, omissions, additions⟩
    exact ⟨mapWellFormed old (tolerates.wholeBefore before changes omissions),
      mapWellFormed new (tolerates.wholeAfter after changes additions)⟩
  · rintro _ _ x ⟨old, new, before, after, changes, omissions, additions⟩ reads fits
    have opened := old.after reads
    cases room with
    | zero => cases opened []
    | succ room =>
      have wholeBefore := tolerates.wholeBefore before changes omissions
      have wholeAfter := tolerates.wholeAfter after changes additions
      -- What the old entries make of the fields, first those that stay and then those that go.
      obtain ⟨u, middle, entries, finished⟩ := bindParts (opened [])
      obtain ⟨rfl, filled⟩ := Fills.ofRead one wholeBefore entries
      obtain ⟨w, stay, go⟩ := (filled.perm independent before).split
      have same := tolerates.omissions omissions go
      -- The new ones make the same of them, without those that went.
      have fit := entriesFit wholeAfter (new.itemAfter fits [])
      have fitting (f : Member) (member : f ∈ _) : Item room f.2 := fit f (after.mem_iff.mpr member)
      have filling := (tolerates.changes changes (fun f member => fitting f (by simp [member]))
        stay).append (tolerates.additions additions (fun f member => fitting f (by simp [member])) w)
      refine new.reads.bind fun rest => ?_
      refine (bindOk ((filling.perm independent after.symm).reads rest)).trans ?_
      rw [same] at finished
      cases complete : shape.finish .missingField w with
      | error fault =>
        rw [complete] at finished
        cases finished
      | ok y =>
        rw [complete] at finished
        cases finished
        rfl

end Shape.Tolerates
end Records

end EntityFoundry.Wire
