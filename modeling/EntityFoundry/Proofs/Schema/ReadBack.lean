import EntityFoundry.Proofs.Wire.ReadBack
import EntityFoundry.Schema.Table
/-! Entity tables read back as they were written, as long as there is room for the containers they
were written in. A level of tables takes two, the record and its list of children, and the last
level a third if it has components. -/
namespace EntityFoundry
open Wire

theorem Payload.readBack {raw : Bytes} (small : raw.length < UInt32.size) (room : Nat)
    (rest : Bytes) :
    (Payload.target room).read ((view raw).put rest) = .ok (view raw, rest) :=
  bindOk (readHeadBinary small rest)

theorem Payload.headNotNil (p : Payload) (rest : Bytes) : (p.put rest).head? ≠ some 0xc0 := by
  simp only [Payload.put, putBinary, putWide]
  split
  next => simp
  next => split <;> simp

namespace ComponentTable

structure Writable (c : ComponentTable) : Prop where
  numbered : c.index < UInt64.size
  placed : ∀ p, c.data = some p → p.borrowed = true
  small : ∀ p, c.data = some p → p.bytes.length < UInt32.size

theorem readData (data : Option Payload) (room : Nat) (rest : Bytes) :
    (∀ p, data = some p → p.borrowed = true) →
    (∀ p, data = some p → p.bytes.length < UInt32.size) →
    (Target.optional (Payload.target room)).read (match data with
      | some p => p.put rest
      | none => putNil rest) = .ok (data, rest) := by
  intro placed small
  cases data with
  | none => rfl
  | some p =>
    obtain ⟨raw, borrowed⟩ := p
    cases placed _ rfl
    have read := mapOk (f := some) (Payload.readBack (small _ rfl) room rest)
    simp only [Target.optional, Payload.headNotNil, if_false]
    exact read

theorem findIndex (room : Nat) :
    Slot.find (shape room).slots (.name (Text.Utf8.encode "def_type")) = some indexSlot :=
  findFirst indexSlot _

theorem findData (room : Nat) :
    Slot.find (shape room).slots (.name (Text.Utf8.encode "def")) = some (dataSlot room) :=
  (findLater indexSlot (by decide) _).trans (findFirst (dataSlot room) _)

theorem readBack {c : ComponentTable} (writable : c.Writable) (room : Nat) (rest : Bytes) :
    ReadsIf (room ≠ 0) (target room).read (c.put rest) c rest := by
  obtain ⟨i, data⟩ := c
  have numbered : i < UInt64.size := writable.numbered
  have fields := readEntryKnown (s := {}) (readKeyText (s := "def_type") (by decide) _ _)
    (findIndex room) rfl (.ofOk (mapOk (readIndex numbered _))) <|
    readEntryKnown (readKeyText (s := "def") (by decide) _ _) (findData room) rfl
      (.ofOk (mapOk (readData data _ rest writable.placed writable.small))) <|
    readEntriesDone (room - 1) _ _ rest
  exact (readRecordMap (by decide) fields rfl).congr (by simp)

theorem putAllFoldr (cs : List ComponentTable) (rest : Bytes) :
    putAll cs rest = cs.foldr put rest := by
  induction cs with
  | nil => rfl
  | cons c cs ih => rw [putAll, ih, List.foldr_cons]

end ComponentTable

namespace EntityTable

inductive Writable : (levels : Nat) → EntityTable → Prop
  | node {levels cs ts} (fewComponents : cs.length < UInt32.size)
      (components : ∀ c ∈ cs, c.Writable) (fewChildren : ts.length < UInt32.size)
      (children : ∀ t ∈ ts, Writable levels t) : Writable (levels + 1) (.node cs ts)

theorem putForestFoldr (ts : List EntityTable) (rest : Bytes) :
    putForest ts rest = ts.foldr put rest := by
  induction ts with
  | nil => rfl
  | cons t ts ih => rw [putForest, ih, List.foldr_cons]

theorem readComponents {cs : List ComponentTable} (few : cs.length < UInt32.size)
    (writable : ∀ c ∈ cs, c.Writable) (room : Nat) (rest : Bytes) :
    ReadsIf (room - 1 ≠ 0 ∧ ∀ c ∈ cs, room - 2 ≠ 0)
      (Target.list (room - 1) (ComponentTable.target (room - 2))).read
      (putArray cs.length (ComponentTable.putAll cs rest)) cs rest := by
  rw [ComponentTable.putAllFoldr]
  exact readListPut few (fun c member => ComponentTable.readBack (writable c member) _) rest

theorem findComponents (room : Nat) (child : Target EntityTable) :
    Slot.find (shape room child).slots (.name (Text.Utf8.encode "components")) =
      some (componentsSlot room) := findFirst (componentsSlot room) _

theorem findChildren (room : Nat) (child : Target EntityTable) :
    Slot.find (shape room child).slots (.name (Text.Utf8.encode "children")) =
      some (childrenSlot room child) := by
  have different : Text.Utf8.encode "components" ≠ Text.Utf8.encode "children" := by decide
  exact (findLater (componentsSlot room) different _).trans (findFirst (childrenSlot room child) _)

theorem readNode {cs : List ComponentTable} {ts : List EntityTable} {child : Target EntityTable}
    {fits : EntityTable → Prop} (fewComponents : cs.length < UInt32.size)
    (components : ∀ c ∈ cs, c.Writable) (fewChildren : ts.length < UInt32.size)
    (children : ∀ t ∈ ts, ∀ rest, ReadsIf (fits t) child.read (t.put rest) t rest)
    (room : Nat) (rest : Bytes) :
    ReadsIf (1 < room ∧ (∀ c ∈ cs, 2 < room) ∧ ∀ t ∈ ts, fits t)
      ((shape room child).target room).read ((node cs ts).put rest) (.node cs ts) rest := by
  have forest : ReadsIf (room - 1 ≠ 0 ∧ ∀ t ∈ ts, fits t) (Target.list (room - 1) child).read
      (putArray ts.length (putForest ts rest)) ts rest := by
    rw [putForestFoldr]
    exact readListPut fewChildren children rest
  have fields := readEntryKnown (s := {}) (readKeyText (s := "components") (by decide) _ _)
    (findComponents room child) rfl
    ((readComponents fewComponents components room _).map _) <|
    readEntryKnown (readKeyText (s := "children") (by decide) _ _) (findChildren room child) rfl
      (forest.map _) <|
    readEntriesDone (room - 1) _ _ rest
  rw [put]
  refine (readRecordMap (by decide) fields rfl).congr ?_
  constructor
  · rintro ⟨-, ⟨roomy, each⟩, ⟨-, below⟩, -⟩
    exact ⟨by omega, fun c member => by have := each c member; omega, below⟩
  · rintro ⟨roomy, each, below⟩
    exact ⟨by omega, ⟨by omega, fun c member => by have := each c member; omega⟩,
      ⟨by omega, below⟩, trivial⟩

mutual

def containers : EntityTable → Nat
  | .node cs ts => 2 + max (min cs.length 1) (forestContainers ts)

def forestContainers : List EntityTable → Nat
  | [] => 0
  | t :: ts => max t.containers (forestContainers ts)

end

theorem forestContainersLe {ts : List EntityTable} {n : Nat} :
    forestContainers ts ≤ n ↔ ∀ t ∈ ts, t.containers ≤ n := by
  induction ts with
  | nil => simp [forestContainers]
  | cons t ts ih => rw [forestContainers, Nat.max_le, ih, List.forall_mem_cons]

theorem componentsFit {cs : List ComponentTable} {room : Nat} :
    min cs.length 1 ≤ room ↔ ∀ c ∈ cs, 0 < room := by
  cases cs with
  | nil => simp
  | cons c cs =>
    simp only [List.length_cons, List.mem_cons, forall_eq_or_imp]
    refine ⟨fun fits => ⟨by omega, fun _ _ => by omega⟩, fun fits => by omega⟩

theorem readBack {levels : Nat} {t : EntityTable} (writable : t.Writable levels) (room : Nat)
    (rest : Bytes) : ReadsIf (t.containers ≤ room) (target room).read (t.put rest) t rest := by
  induction writable generalizing room rest with
  | @node levels cs ts fewComponents components fewChildren children ih =>
    -- With less room than two the components are not reached, and no child is read.
    have shallow (room : Nat) (little : room < 2) :
        ReadsIf ((node cs ts).containers ≤ room) ((shape room noChild).target room).read
          ((node cs ts).put rest) (.node cs ts) rest := by
      have refused (t : EntityTable) (_ : t ∈ ts) (rest : Bytes) :
          ReadsIf False noChild.read (t.put rest) t rest := ⟨nofun, fun _ => rfl⟩
      refine (readNode fewComponents components fewChildren refused room rest).congr ?_
      rw [containers]
      exact ⟨fun fits => by omega, fun fits => by omega⟩
    match room with
    | 0 => exact shallow 0 (by omega)
    | 1 => exact shallow 1 (by omega)
    | room + 2 =>
      have deep := readNode fewComponents components fewChildren
        (fun t member rest => ih t member room rest) (room + 2) rest
      refine deep.congr ?_
      rw [containers, Nat.add_comm 2, Nat.add_le_add_iff_right, Nat.max_le, componentsFit,
        forestContainersLe]
      simp

theorem Writable.containersLe {levels : Nat} {t : EntityTable} (writable : t.Writable levels) :
    t.containers ≤ 2 * levels + 1 := by
  induction writable with
  | @node levels cs ts _ _ _ _ ih =>
    have below := forestContainersLe.mpr ih
    rw [containers]
    omega

theorem rootOfEncode {levels : Nat} {t : EntityTable} (writable : t.Writable levels) :
    Schema.standard.root (Schema.standard.encode t) =
      if t.containers ≤ maxOpen then .ok t else .error .depthLimit := by
  have read := readBack writable maxOpen []
  change (target maxOpen).decode (t.put []) = _
  rw [Target.decode]
  split
  next fits => rw [read.reads fits]; rfl
  next deep => rw [read.refuses deep]; rfl

end EntityTable
end EntityFoundry
