import EntityFoundry.Proofs.Schema.Framing
import EntityFoundry.Proofs.Wire.Revision
/-! Assets of one schema written at different times. Tables are maps, so their entries may stand in
any order, entries nobody knows may come in and empty ones may go. Main statement: whatever loads,
loads as the same tree after such changes at any depth. -/
namespace EntityFoundry
open Wire

def NamesField (name : String) (position : Nat) (k : Bytes) : Prop :=
  SpellsKey k (.name (Text.Utf8.encode name)) ∨ SpellsKey k (.position position)

theorem NamesField.wellFormed {name : String} {position : Nat} {k : Bytes}
    (named : NamesField name position k) : WellFormed k :=
  named.elim SpellsKey.wellFormed SpellsKey.wellFormed

theorem NamesField.key {name : String} {position : Nat} {k : Bytes}
    (named : NamesField name position k) {σ : Type} {slots : List (Slot σ)} {slot : Slot σ}
    (found : Slot.find slots (.name (Text.Utf8.encode name)) = some slot)
    (placed : slots[position]? = some slot) :
    ∃ key, SpellsKey k key ∧ Slot.find slots key = some slot := by
  rcases named with spelled | spelled
  · exact ⟨_, spelled, found⟩
  · exact ⟨_, spelled, placed⟩

structure Unnamed (names : List String) (e : Member) : Prop where
  key : ∃ raw, Spells e.1 (.text raw) ∧ ∀ name ∈ names, Text.Utf8.encode name ≠ raw
  value : WellFormed e.2

theorem Unnamed.wellFormed {names : List String} {e : Member} (unnamed : Unnamed names e) :
    e.WellFormed := by
  obtain ⟨raw, spelled, -⟩ := unnamed.key
  exact ⟨⟨0, .text spelled⟩, unnamed.value⟩

theorem Unnamed.fill {σ : Type} {room : Nat} {slots : List (Slot σ)} {names : List String}
    {e : Member} (unnamed : Unnamed names e) (all : slots.map (·.name) = names)
    (fits : Item room e.2) (s : σ) : Fill room slots e s s := by
  subst all
  obtain ⟨raw, spelled, different⟩ := unnamed.key
  refine fillUnknown (.text spelled) (List.find?_eq_none.mpr fun slot member => ?_) fits s
  simpa using different slot.name (List.mem_map_of_mem member)

namespace ComponentTable

def Blank (e : Member) : Prop := NamesField "def" 1 e.1 ∧ e.2 = [0xc0]

inductive Revised : Bytes → Bytes → Prop
  | same {b : Bytes} (whole : WellFormed b) : Revised b b
  | changed {b c : Bytes}
      (entries : MapRevised (fun e f => e = f ∧ e.WellFormed) Blank (Unnamed ["def_type", "def"])
        b c) : Revised b c

theorem independent (room : Nat) : Slot.Independent (shape room).slots where
  filling := List.forall_mem_cons.mpr ⟨Slot.ofTargetFilling fun _ _ => rfl,
    List.forall_mem_singleton.mpr (Slot.ofTargetFilling fun _ _ => rfl)⟩
  apart := List.pairwise_pair.mpr <|
    Slot.ofTargetApart (fun _ _ => rfl) (fun _ _ => rfl) fun _ _ _ => rfl

theorem Blank.omission {room : Nat} {e : Member} (blank : Blank e) {s u : Partial}
    (fill : Fill (room - 1) (shape room).slots e s u) :
    (shape room).finish .missingField u = (shape room).finish .missingField s := by
  obtain ⟨named, nil⟩ := blank
  obtain ⟨key, spelled, found⟩ := named.key (findData room) rfl
  have delimited := Target.optionalDelimited (Payload.targetDelimited (room - 1)) rfl
  obtain ⟨free, x, reads, rfl⟩ := (fillNamed spelled delimited found).mp fill
  have absent : x = none := by
    rw [nil] at reads
    cases reads []
    rfl
  simp [shape, absent, free]

theorem tolerates (room : Nat) : (shape room).Tolerates (room - 1)
    (fun e f => e = f ∧ e.WellFormed) Blank (Unnamed ["def_type", "def"]) where
  changedWhole := by
    rintro e _ ⟨rfl, whole⟩
    exact ⟨whole, whole⟩
  omittedWhole := by
    rintro e ⟨named, nil⟩
    exact ⟨named.wellFormed, nil ▸ ⟨0, .scalar .nil⟩⟩
  addedWhole := fun e unnamed => unnamed.wellFormed
  change := by
    rintro e _ ⟨rfl, _⟩ _ s u fill
    exact fill
  omission := fun e blank s u => blank.omission
  addition := fun e unnamed fits s => unnamed.fill rfl fits s

theorem targetOne (room : Nat) : OneItem room (target room).read :=
  ⟨targetTakes room, targetDelimited room⟩

theorem kept (room : Nat) : Kept room (target room).read Revised := by
  have changed := (tolerates room).kept (independent room) fun slot member =>
    ⟨slotsTake room slot member, slotsDelimited room slot member⟩
  refine ⟨?_, ?_⟩
  · rintro b c (whole | entries)
    · exact ⟨whole, whole⟩
    · exact changed.whole b c entries
  · rintro b c x (whole | entries) reads fits
    · exact reads
    · exact changed.reads b c x entries reads fits

end ComponentTable

namespace EntityTable

inductive EntryRevised (child : Bytes → Bytes → Prop) : Member → Member → Prop
  | same {e : Member} (whole : e.WellFormed) : EntryRevised child e e
  | components {k v w : Bytes} (named : NamesField "components" 0 k)
      (tables : ListRevised ComponentTable.Revised v w) : EntryRevised child (k, v) (k, w)
  | children {k v w : Bytes} (named : NamesField "children" 1 k)
      (tables : ListRevised child v w) : EntryRevised child (k, v) (k, w)

def Blank (e : Member) : Prop :=
  (NamesField "components" 0 e.1 ∨ NamesField "children" 1 e.1) ∧
    (Spells e.2 (.array 0) ∨ Spells e.2 (.binary []))

def Revised : (levels : Nat) → Bytes → Bytes → Prop
  | 0, b, c => b = c ∧ WellFormed b
  | levels + 1, b, c => b = c ∧ WellFormed b ∨
    MapRevised (EntryRevised (Revised levels)) Blank (Unnamed ["components", "children"]) b c

theorem independent (room : Nat) (child : Target EntityTable) :
    Slot.Independent (shape room child).slots where
  filling := List.forall_mem_cons.mpr ⟨Slot.ofTargetFilling fun _ _ => rfl,
    List.forall_mem_singleton.mpr (Slot.ofTargetFilling fun _ _ => rfl)⟩
  apart := List.pairwise_pair.mpr <|
    Slot.ofTargetApart (fun _ _ => rfl) (fun _ _ => rfl) fun _ _ _ => rfl

theorem readsBlank {α : Type} {room : Nat} {item : Target α} {b : Bytes}
    (blank : Spells b (.array 0) ∨ Spells b (.binary [])) {xs : List α}
    (reads : ReadsAs (Target.list room item).read b xs) : xs = [] := by
  rw [← List.append_nil b] at reads
  rcases blank with spelled | spelled
  · have read := spelled.after reads []
    cases room with
    | zero => cases read
    | succ room =>
      cases read
      rfl
  · cases spelled.after reads []
    rfl

section Shape
variable {room : Nat} {child : Target EntityTable} {changed : Bytes → Bytes → Prop}

theorem Blank.omission (delimited : Delimited child.read) {e : Member} (blank : Blank e)
    {s u : Partial} (fill : Fill (room - 1) (shape room child).slots e s u) :
    (shape room child).finish .missingField u = (shape room child).finish .missingField s := by
  obtain ⟨named | named, empty⟩ := blank
  · obtain ⟨key, spelled, found⟩ := named.key (findComponents room child) rfl
    have delimited := Target.listDelimited (ComponentTable.targetDelimited (room - 2)) (room - 1)
    obtain ⟨free, xs, reads, rfl⟩ := (fillNamed spelled delimited found).mp fill
    simp [shape, readsBlank empty reads, free]
  · obtain ⟨key, spelled, found⟩ := named.key (findChildren room child) rfl
    have delimited := Target.listDelimited delimited (room - 1)
    obtain ⟨free, xs, reads, rfl⟩ := (fillNamed spelled delimited found).mp fill
    simp [shape, readsBlank empty reads, free]

theorem componentsKept (room : Nat) :
    Kept (room - 1) (Target.list (room - 1) (ComponentTable.target (room - 2))).read
      (ListRevised ComponentTable.Revised) :=
  (ComponentTable.kept (room - 2)).list (ComponentTable.targetOne (room - 2))

theorem tolerates (one : OneItem (room - 2) child.read) (kept : Kept (room - 2) child.read changed) :
    (shape room child).Tolerates (room - 1) (EntryRevised changed) Blank
      (Unnamed ["components", "children"]) where
  changedWhole := by
    rintro _ _ (whole | ⟨named, tables⟩ | ⟨named, tables⟩)
    · exact ⟨whole, whole⟩
    · obtain ⟨before, after⟩ := (componentsKept room).whole _ _ tables
      exact ⟨⟨named.wellFormed, before⟩, named.wellFormed, after⟩
    · obtain ⟨before, after⟩ := ListRevised.whole kept.whole _ _ tables
      exact ⟨⟨named.wellFormed, before⟩, named.wellFormed, after⟩
  omittedWhole := by
    rintro e ⟨named, empty⟩
    refine ⟨named.elim NamesField.wellFormed NamesField.wellFormed, ?_⟩
    rcases empty with spelled | spelled
    · have whole := @arrayWellFormed _ [] spelled nofun
      rwa [List.flatten_nil, List.append_nil] at whole
    · exact ⟨0, .binary spelled⟩
  addedWhole := fun e unnamed => unnamed.wellFormed
  change := by
    rintro _ _ (whole | ⟨named, tables⟩ | ⟨named, tables⟩) fits s u fill
    · exact fill
    · obtain ⟨key, spelled, found⟩ := named.key (findComponents room child) rfl
      have delimited := Target.listDelimited (ComponentTable.targetDelimited (room - 2)) (room - 1)
      exact (componentsKept room).fill delimited spelled found tables fits fill
    · obtain ⟨key, spelled, found⟩ := named.key (findChildren room child) rfl
      have delimited := Target.listDelimited one.delimited (room - 1)
      exact (kept.list one).fill delimited spelled found tables fits fill
  omission := fun e blank s u => blank.omission one.delimited
  addition := fun e unnamed fits s => unnamed.fill rfl fits s

theorem shapeKept (one : OneItem (room - 2) child.read)
    (kept : Kept (room - 2) child.read changed) :
    Kept room ((shape room child).target room).read
      (MapRevised (EntryRevised changed) Blank (Unnamed ["components", "children"])) :=
  (tolerates one kept).kept (independent room child) fun slot member =>
    ⟨slotsTake one.takes slot member, slotsDelimited one.delimited room slot member⟩

end Shape

theorem targetOne (room : Nat) : OneItem room (target room).read :=
  ⟨targetTakes room, targetDelimited room⟩

theorem tableKept {levels : Nat} (kept : ∀ room, Kept room (target room).read (Revised levels))
    (room : Nat) : Kept room (target room).read
      (MapRevised (EntryRevised (Revised levels)) Blank (Unnamed ["components", "children"])) := by
  have noneKept : Kept 0 noChild.read (Revised levels) :=
    ⟨(kept 0).whole, fun _ _ _ _ reads => nomatch reads []⟩
  have noneOne : OneItem 0 noChild.read := ⟨.throw _, .throw _⟩
  match room with
  | 0 => exact shapeKept noneOne noneKept
  | 1 => exact shapeKept noneOne noneKept
  | room + 2 => exact shapeKept (targetOne room) (kept room)

theorem kept (levels room : Nat) : Kept room (target room).read (Revised levels) := by
  induction levels generalizing room with
  | zero =>
    refine ⟨?_, ?_⟩
    · rintro b _ ⟨rfl, whole⟩
      exact ⟨whole, whole⟩
    · rintro b _ x ⟨rfl, whole⟩ reads fits
      exact reads
  | succ levels ih =>
    have changed := tableKept ih room
    refine ⟨?_, ?_⟩
    · rintro b c (⟨rfl, whole⟩ | entries)
      · exact ⟨whole, whole⟩
      · exact changed.whole b c entries
    · rintro b c x (⟨rfl, whole⟩ | entries) reads fits
      · exact reads
      · exact changed.reads b c x entries reads fits

end EntityTable

namespace Schema

/-- Changes to the maps of a standard asset that only move, add or leave out what says nothing do not
show in what it loads as, whatever follows the one or the other. -/
theorem loadRevised (types : TypeIndex) (levels : Nat) (asset revised before after : Bytes)
    (t : Tree) (ws : List Warning) (revision : EntityTable.Revised levels asset revised)
    (fits : Item maxOpen revised) (loaded : standard.load types (asset ++ before) = .ok (t, ws)) :
    standard.load types (revised ++ after) = .ok (t, ws) := by
  obtain ⟨u, root, rfl, rfl⟩ := loadRoot loaded
  obtain ⟨rest, read⟩ := rootRead root
  have kept := EntityTable.kept levels maxOpen
  have one := EntityTable.targetOne maxOpen
  obtain ⟨-, reads⟩ := one.parts (kept.whole _ _ revision).1 read
  have same : standard.root (revised ++ after) = .ok u := by
    change ((EntityTable.target maxOpen).read (revised ++ after)).map (·.1) = _
    rw [kept.reads _ _ _ revision reads fits after]
    rfl
  simp only [load, same]

theorem cartRevised :
    let types : TypeIndex := { tags := [⟨7⟩] }
    let type : Bytes := 0xa8 :: Text.Utf8.encode "def_type"
    let data : Bytes := 0xa3 :: Text.Utf8.encode "def"
    let components : Bytes := 0xaa :: Text.Utf8.encode "components"
    let children : Bytes := 0xa8 :: Text.Utf8.encode "children"
    let asset : Bytes := 0x82 :: (components ++
      0x91 :: 0x82 :: (type ++ 0 :: data ++ 0xc4 :: 1 :: 5 :: children ++ [0x90]))
    -- Without the children; behind a key that is no well-formed text stands an extension.
    let revised : Bytes := 0xde :: 0 :: 2 :: 0xa2 :: 0xff :: 0xfe :: 0xd4 :: 9 :: 0 :: (components ++
      0x91 :: 0x82 :: (data ++ 0xc4 :: 1 :: 5 :: type ++ [0]))
    let t : Tree := .leaf [⟨⟨7⟩, .view [5]⟩]
    EntityTable.Revised 1 asset revised ∧ Item maxOpen revised ∧
      standard.load types asset = .ok (t, []) ∧
      standard.load types (revised ++ [0xc1]) = .ok (t, []) := by
  intro types type data components children asset revised t
  have passed : skip 3 revised = .ok ((), []) := by decide +kernel
  have fits : Item maxOpen revised := (itemOfSkipped passed).mono (by decide)
  have loaded : standard.load types asset = .ok (t, []) := by rfl
  have whole {b : Bytes} (skipped : skip 1 b = .ok ((), [])) : WellFormed b :=
    ⟨1, itemOfSkipped skipped⟩
  have two : Spells [0x82] (.map 2) := .fixMap (n := 2) (by decide)
  have wide : Spells [0xde, 0, 2] (.map 2) := .map (w := 2) (n := 2) (by decide) (by decide)
  have single : Spells [0x91] (.array 1) := .fixArray (n := 1) (by decide)
  have moved : ComponentTable.Revised (0x82 :: (type ++ 0 :: data ++ [0xc4, 1, 5]))
      (0x82 :: (data ++ 0xc4 :: 1 :: 5 :: type ++ [0])) :=
    .changed <| @MapRevised.map _ _ _ [0x82] [0x82] [(type, [0]), (data, [0xc4, 1, 5])]
      [(data, [0xc4, 1, 5]), (type, [0])] [(type, [0]), (data, [0xc4, 1, 5])] []
      [(type, [0]), (data, [0xc4, 1, 5])] [] two two (.refl _) (.swap _ _ _)
      (.cons ⟨rfl, whole rfl, whole rfl⟩ (.cons ⟨rfl, whole rfl, whole rfl⟩ .nil))
      (by simp) (by simp)
  have named (name : String) (position : Nat) (short : (Text.Utf8.encode name).length < 32) :
      NamesField name position (UInt8.ofNat (0xa0 + (Text.Utf8.encode name).length) ::
        Text.Utf8.encode name) := .inl (.text (.fixText short))
  have revision : EntityTable.Revised 1 asset revised := by
    let record : Bytes := 0x91 :: 0x82 :: (type ++ 0 :: data ++ [0xc4, 1, 5])
    let other : Bytes := 0x91 :: 0x82 :: (data ++ 0xc4 :: 1 :: 5 :: type ++ [0])
    have listed : ListRevised ComponentTable.Revised record other :=
      @ListRevised.array _ [0x91] [_] [_] single (.cons moved .nil)
    refine .inr <| @MapRevised.map _ _ _ [0x82] [0xde, 0, 2]
      [(components, record), (children, [0x90])]
      [([0xa2, 0xff, 0xfe], [0xd4, 9, 0]), (components, other)] [(components, record)]
      [(children, [0x90])] [(components, other)] [([0xa2, 0xff, 0xfe], [0xd4, 9, 0])] two wide
      (.refl _) (.swap _ _ _) ?_ ?_ ?_
    · exact .cons (.components (named "components" 0 (by decide)) listed) .nil
    · have empty : Spells [0x90] (.array 0) := .fixArray (n := 0) (by decide)
      exact List.forall_mem_singleton.mpr ⟨.inr (named "children" 1 (by decide)), .inl empty⟩
    · have odd : Spells [0xa2, 0xff, 0xfe] (.text [0xff, 0xfe]) :=
        @Spells.fixText [0xff, 0xfe] (by decide)
      exact List.forall_mem_singleton.mpr ⟨⟨_, odd, by decide⟩, whole rfl⟩
  exact ⟨revision, fits, loaded, loadRevised types 1 asset revised [] [0xc1] t _ revision fits loaded⟩

end Schema
end EntityFoundry
