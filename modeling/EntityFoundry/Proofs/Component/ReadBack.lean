import EntityFoundry.Component.Kinds
import EntityFoundry.Proofs.Text.Utf8
import EntityFoundry.Proofs.Wire.ReadBack
/-! Components read back from their records. The payload of a component gives the component again,
every number bit for bit, whatever follows it; a record with another tag is refused before its
payload is looked at. -/
namespace EntityFoundry
open Wire

namespace Wire

theorem readSinglePut (x : Single) (rest : Bytes) :
    Target.single.read (putSingle x rest) = .ok (x, rest) := by
  have small : x.bits.toNat < Bytes.span 4 := x.bits.toNat_lt
  have bits : UInt32.ofNat x.bits.toNat = x.bits := UInt32.ofNat_toNat
  refine readScalarByte _ rfl (s := .single ⟨UInt32.ofNat x.bits.toNat⟩)
    (bindOk (readNatOfNat small rest)) ?_
  rw [bits]

theorem readTextPut {s : String} (small : (Text.Utf8.encode s).length < UInt32.size)
    (expected : String) (room : Nat) (rest : Bytes) :
    (Target.text expected room).read (putText s rest) = .ok (s, rest) := by
  refine (bindOk (readHeadText small rest)).trans ?_
  simp only [Text.Utf8.decodeEncode]
  rfl

theorem readTriplePut {α : Type} {item : Target α} {put : α → Bytes → Bytes}
    (readBack : ∀ x rest, item.read (put x rest) = .ok (x, rest)) (room : Nat) (x y z : α)
    (rest : Bytes) :
    ReadsIf (room ≠ 0) (Target.triple room item).read (putArray 3 (put x (put y (put z rest))))
      (x, y, z) rest := by
  have each : ∀ w ∈ [x, y, z], ∀ rest, ReadsIf True item.read (put w rest) w rest :=
    fun w _ rest => .ofOk (readBack w rest)
  have three := readManyPut each [] rest
  refine (ReadsIf.after (readHeadArray (by decide) _) (.opened ?_)).congr (iff_of_eq (and_true _))
  exact .after (three.reads fun _ _ => trivial) (.ofOk rfl)

theorem Target.textDelimited (expected : String) (room : Nat) :
    Delimited (Target.text expected room).read := by
  refine headDelimited.bind fun head => ?_
  cases head with
  | text raw | binary raw =>
    cases read : Text.Utf8.decode raw with
    | ok s =>
      simp only [read]
      exact .pure s
    | error fault =>
      simp only [read]
      exact .throw _
  | scalar | array | map | ext => exact .throw _

theorem Target.tripleDelimited {α : Type} {item : Target α} (delimited : Delimited item.read)
    (room : Nat) : Delimited (Target.triple room item).read := by
  refine headDelimited.bind fun head => ?_
  cases head with
  | array n =>
    refine Delimited.opened ((manyDelimited delimited _ []).bind fun xs => ?_)
    split
    · split
      · exact .pure _
      · exact .throw _
    · exact .throw _
  | binary raw =>
    refine (Delimited.lift _).bind fun xs => ?_
    split
    · exact .pure _
    · exact .throw _
  | scalar | text | map | ext => exact .throw _

end Wire

theorem Health.readBack (h : Health) (room : Nat) (rest : Bytes) :
    ReadsIf (room ≠ 0) (shape.target room).read (h.put rest) h rest := by
  have current : Slot.find shape.slots (.name (Text.Utf8.encode "current")) = shape.slots[0]? :=
    findFirst _ _
  have max : Slot.find shape.slots (.name (Text.Utf8.encode "max")) = shape.slots[1]? :=
    (findLater _ (by decide) _).trans (findFirst _ _)
  have fields := readEntryKnown (s := {}) (readKeyText (s := "current") (by decide) _ _)
    current rfl (.ofOk (mapOk (readSinglePut h.current _))) <|
    readEntryKnown (readKeyText (s := "max") (by decide) _ _) max rfl
      (.ofOk (mapOk (readSinglePut h.max rest))) <|
    readEntriesDone (room - 1) _ _ rest
  exact (readRecordMap (by decide) fields rfl).congr (by simp)

theorem Transform.readBack (t : Transform) (room : Nat) (rest : Bytes) :
    ReadsIf (1 < room) ((shape room).target room).read (t.put rest) t rest := by
  have position : Slot.find (shape room).slots (.name (Text.Utf8.encode "position")) =
      (shape room).slots[0]? := findFirst _ _
  have fields := readEntryKnown (s := {}) (readKeyText (s := "position") (by decide) _ _)
    position rfl ((readTriplePut readSinglePut (room - 1) t.x t.y t.z rest).map _) <|
    readEntriesDone (room - 1) _ _ rest
  refine (readRecordMap (by decide) fields rfl).congr ?_
  rw [and_true]
  omega

namespace Kind

def Short : (k : Kind) → k.Value → Prop
  | .name, s => (Text.Utf8.encode s).length < UInt32.size
  | .health, _ => True
  | .transform, _ => True

theorem readBack {k : Kind} {x : k.Value} (short : k.Short x) :
    k.target.read (k.encode x) = .ok (x, []) := by
  cases k with
  | name => exact readTextPut short _ _ []
  | health => exact (Health.readBack x maxOpen []).reads (by decide)
  | transform => exact (Transform.readBack x maxOpen []).reads (by decide)

theorem targetDelimited (k : Kind) : Delimited k.target.read := by
  cases k with
  | name => exact Target.textDelimited _ _
  | health =>
    refine Shape.targetDelimited (fun slot member => ?_) maxOpen
    rcases List.mem_cons.mp member with rfl | later
    · exact (Target.scalarDelimited _ _).map _
    · obtain rfl := List.mem_singleton.mp later
      exact (Target.scalarDelimited _ _).map _
  | transform =>
    refine Shape.targetDelimited (fun slot member => ?_) maxOpen
    obtain rfl := List.mem_singleton.mp member
    exact (Target.tripleDelimited (Target.scalarDelimited _ _) _).map _

theorem tagsApart {j k : Kind} (different : j ≠ k) : j.tag ≠ k.tag := by
  revert different
  cases j <;> cases k <;> decide +kernel

end Kind

namespace Record

theorem decodeOther {j k : Kind} (other : j ≠ k) (data : Payload) :
    (Record.mk k.tag data).decode j = .error (.unsupported k.tag) :=
  if_neg (Kind.tagsApart other).symm

theorem decodeValue {k : Kind} {x : k.Value} (short : k.Short x) (extra : Bytes)
    (borrowed : Bool) : (Record.mk k.tag ⟨k.encode x ++ extra, borrowed⟩).decode k = .ok x := by
  have read := k.targetDelimited.extend (Kind.readBack short) extra
  refine (if_pos rfl).trans ?_
  rw [Target.decode, read]
  rfl

theorem ofValueReadBack (k : Kind) :
    (∀ x, k.Short x → (ofValue k x).decode k = .ok x ∧
      ∀ extra borrowed, (Record.mk k.tag ⟨k.encode x ++ extra, borrowed⟩).decode k = .ok x) ∧
    ∀ j, j ≠ k → ∀ data, (Record.mk k.tag data).decode j = .error (.unsupported k.tag) := by
  refine ⟨fun x short => ⟨?_, decodeValue short⟩, fun j other => decodeOther other⟩
  have read := decodeValue short [] false
  rw [List.append_nil] at read
  exact read

theorem oddValuesReadBack :
    let nan : Single := ⟨0x7fc00001⟩
    let health : Health := ⟨nan, ⟨0x80000000⟩⟩
    let moved : Transform := ⟨⟨1⟩, ⟨0xff800000⟩, nan⟩
    nan.isNaN = true ∧ Kind.name.Short "caf\u00e9 🚲" ∧
      (ofValue .name "caf\u00e9 🚲").decode .name = .ok "caf\u00e9 🚲" ∧
      Kind.health.Short health ∧
      (Record.mk Kind.health.tag ⟨Kind.health.encode health ++ [0xc1], true⟩).decode .health =
        .ok health ∧
      Kind.transform.Short moved ∧ (ofValue .transform moved).decode .transform = .ok moved ∧
      Kind.name ≠ .health ∧
      (Record.mk Kind.health.tag (.owned [])).decode .name = .error (.unsupported Kind.health.tag) := by
  intro nan health moved
  have name : Kind.name.Short "caf\u00e9 🚲" := by
    change (Text.Utf8.encode "caf\u00e9 🚲").length < UInt32.size
    decide +kernel
  obtain ⟨read, other⟩ := ofValueReadBack .health
  exact ⟨by decide, name, ((ofValueReadBack .name).1 _ name).1, trivial,
    (read health trivial).2 [0xc1] true, trivial, ((ofValueReadBack .transform).1 moved trivial).1,
    nofun, other .name nofun (.owned [])⟩

end Record
end EntityFoundry
