import EntityFoundry.Proofs.Schema.Framing
import EntityFoundry.Proofs.Wire.Numbers
import EntityFoundry.Proofs.Wire.Revision
/-! The forms of a payload. It is a byte string or text that is not well formed, viewed in place, or
an array of byte values, each in any form of an integer, that is copied. Whichever of them the bytes
came in, they are the same payload, and it is written as a byte string. -/
namespace EntityFoundry.Payload
open Wire

inductive Form : Bytes → Payload → Prop
  | binary {b raw : Bytes} (spelled : Spells b (.binary raw)) : Form b (view raw)
  | text {b raw : Bytes} {fault : Text.Utf8.Fault} (spelled : Spells b (.text raw))
      (malformed : Text.Utf8.decode raw = .error fault) : Form b (view raw)
  | array {head raw : Bytes} {items : List Bytes} (spelled : Spells head (.array items.length))
      (each : List.Forall₂ SpellsByte items raw) : Form (head ++ items.flatten) (owned raw)

theorem bytesSpelled {items : List Bytes} {ns : List Nat}
    (each : List.Forall₂ (ReadsAs Target.u8.read) items ns) :
    List.Forall₂ SpellsByte items (ns.map UInt8.ofNat) :=
  List.forall₂_map_right_iff.mpr (each.imp fun _ _ reads => (byteReads.mp reads).2)

theorem bytesRead {items : List Bytes} {raw : Bytes} (each : List.Forall₂ SpellsByte items raw) :
    List.Forall₂ (ReadsAs Target.u8.read) items (raw.map UInt8.toNat) := by
  refine List.forall₂_map_right_iff.mpr (each.imp fun e b spelled => byteReads.mpr ⟨b.toNat_lt, ?_⟩)
  rwa [UInt8.ofNat_toNat]

theorem formOfRead {room : Nat} {b : Bytes} {p : Payload} (reads : ReadsAs (target room).read b p) :
    Form b p := by
  obtain ⟨head, middle, start, last⟩ := bindParts reads.read
  obtain ⟨front, rfl, spelled⟩ := spelledOfHead start
  cases head with
  | binary raw =>
    cases last
    rw [List.append_nil]
    exact .binary spelled
  | text raw =>
    simp only at last
    cases decoded : Text.Utf8.decode raw with
    | ok s =>
      simp only [decoded] at last
      cases last
    | error fault =>
      simp only [decoded] at last
      cases last
      rw [List.append_nil]
      exact .text spelled decoded
  | array n =>
    cases room with
    | zero => cases last
    | succ room =>
      obtain ⟨ns, after, many, made⟩ := bindParts last
      cases made
      obtain ⟨items, ys, rfl, rfl, rfl, each⟩ := manyItems (Target.scalarDelimited _ _) n many
      rw [List.append_nil]
      exact .array spelled (bytesSpelled each)
  | scalar | map | ext => cases last

theorem Form.reads {b : Bytes} {p : Payload} (form : Form b p) (room : Nat) :
    ReadsAs (target (room + 1)).read b p := by
  cases form with
  | binary spelled => exact fun rest => bindOk (spelled.reads rest)
  | text spelled malformed =>
    intro rest
    refine (bindOk (spelled.reads rest)).trans ?_
    simp only [malformed]
    rfl
  | @array head raw items spelled each =>
    refine spelled.reads.bind fun rest => (bindOk (manyReads (bytesRead each) [] rest)).trans ?_
    have same : (raw.map UInt8.toNat).map UInt8.ofNat = raw := by simp [Function.comp_def]
    rw [List.reverse_nil, List.nil_append, same]
    rfl

theorem Form.decodes {b : Bytes} {p : Payload} (form : Form b p) (rest : Bytes) :
    decode (b ++ rest) = .ok p := by
  have read := form.reads 1022 rest
  change ((target (1022 + 1)).read (b ++ rest)).map (·.1) = _
  rw [read]
  rfl

theorem arrayBytes {head rest : Bytes} {items : List Bytes} {p : Payload}
    (spelled : Spells head (.array items.length)) (wellFormed : ∀ b ∈ items, WellFormed b)
    (decoded : decode (head ++ items.flatten ++ rest) = .ok p) :
    ∃ raw, List.Forall₂ SpellsByte items raw ∧ p = owned raw := by
  cases read : (target maxOpen).read (head ++ items.flatten ++ rest) with
  | error fault =>
    rw [decode, Target.decode, read] at decoded
    cases decoded
  | ok found =>
    obtain ⟨q, after⟩ := found
    rw [decode, Target.decode, read] at decoded
    cases decoded
    rw [List.append_assoc] at read
    have inside := (bindOk (spelled.reads (items.flatten ++ rest))).symm.trans read
    obtain ⟨ns, _, many, made⟩ := bindParts inside
    have one : OneItem 0 Target.u8.read := ⟨Target.scalarTakes _ _ 0, Target.scalarDelimited _ _⟩
    obtain ⟨ys, -, rfl, each⟩ := manyParts one wellFormed many
    cases made
    exact ⟨_, bytesSpelled each, rfl⟩

theorem putSpells {raw : Bytes} (short : raw.length < UInt32.size) (p : Payload)
    (same : p.bytes = raw) : Spells (p.put []) (.binary raw) := by
  simp only [put, putBinary, putWide, same, List.append_nil]
  split
  next byte => exact .binary (by decide : (0xc4, 1) ∈ binaryForms) byte
  next =>
    split
    next word => exact .binary (by decide : (0xc5, 2) ∈ binaryForms) word
    next => exact .binary (by decide : (0xc6, 4) ∈ binaryForms) short

theorem arrayAgreesBinary (raw : Bytes) (short : raw.length < UInt32.size) :
    (∀ head (items : List Bytes), Spells head (.array items.length) →
      List.Forall₂ SpellsByte items raw →
      (∀ room, ReadsAs (target (room + 1)).read (head ++ items.flatten) (owned raw)) ∧
      ∀ rest, decode (head ++ items.flatten ++ rest) = .ok (owned raw)) ∧
    (∀ b rest, Spells b (.binary raw) → decode (b ++ rest) = .ok (view raw)) ∧
    (owned raw == view raw) = true ∧
    (∀ p, p = owned raw ∨ p = view raw →
      p.put [] = putBinary raw [] ∧ Spells (p.put []) (.binary raw)) ∧
    ∀ head (items : List Bytes) rest, Spells head (.array items.length) →
      (∀ b ∈ items, WellFormed b) →
      (∃ b ∈ items, (∃ i, SpellsInteger b i ∧ (i < 0 ∨ 255 < i)) ∨ ¬ ∃ i, SpellsInteger b i) →
      ∃ fault, decode (head ++ items.flatten ++ rest) = .error fault := by
  refine ⟨fun head items spelled each => ?_,
    fun b rest spelled => (Form.binary spelled).decodes rest, beq_self_eq_true raw, ?_, ?_⟩
  · have form := Form.array spelled each
    exact ⟨form.reads, form.decodes⟩
  · rintro p (rfl | rfl)
    · exact ⟨rfl, putSpells short _ rfl⟩
    · exact ⟨rfl, putSpells short _ rfl⟩
  · rintro head items rest spelled wellFormed ⟨b, member, wrong⟩
    cases decoded : decode (head ++ items.flatten ++ rest) with
    | error fault => exact ⟨fault, rfl⟩
    | ok p =>
      obtain ⟨bytes, each, -⟩ := arrayBytes spelled wellFormed decoded
      obtain ⟨byte, integer⟩ := forall₂Left (p := fun b => ∃ byte, SpellsByte b byte) each
        (fun _ byte spelled => ⟨byte, spelled⟩) b member
      have small := byte.toNat_lt
      rcases wrong with ⟨i, other, outside⟩ | none
      · have same := integer.unique other
        omega
      · exact absurd ⟨_, integer⟩ none

theorem mixedWidthsAgree :
    let raw : Bytes := [5, 255, 0]
    let head : Bytes := [0xdc, 0, 3]
    let items : List Bytes := [[5], [0xd1, 0, 255], [0xce, 0, 0, 0, 0]]
    raw.length < UInt32.size ∧ Spells head (.array items.length) ∧
      List.Forall₂ SpellsByte items raw ∧
      decode (head ++ items.flatten ++ [0xc1]) = .ok (owned raw) ∧
      decode ((owned raw).put []) = .ok (view raw) ∧
      ∃ fault, decode (head ++ ([[5], [0xff], [0]] : List Bytes).flatten ++ [0xc1]) =
        .error fault := by
  intro raw head items
  have spelled : Spells head (.array items.length) :=
    .array (by decide : (0xdc, 2) ∈ arrayForms) (by decide : 3 < Bytes.span 2)
  have first : SpellsByte [5] 5 := ⟨false, .fixPos (by decide)⟩
  have second : SpellsByte [0xd1, 0, 255] 255 :=
    ⟨true, .signed (i := 255) (by decide : (0xd1, 2) ∈ signedForms) (by decide) (by decide)⟩
  have third : SpellsByte [0xce, 0, 0, 0, 0] 0 :=
    ⟨false, .unsigned (n := 0) (by decide : (0xce, 4) ∈ unsignedForms) (by decide)⟩
  have each : List.Forall₂ SpellsByte items raw := .cons first (.cons second (.cons third .nil))
  have negative : Spells [0xff] (.scalar (.int true (-1))) := .fixNeg (n := 31) (by decide)
  have zero : Spells [0] (.scalar (.int false 0)) := .fixPos (n := 0) (by decide)
  obtain ⟨copied, viewed, -, written, refused⟩ := arrayAgreesBinary raw (by decide)
  have binary := viewed _ [] (written _ (.inl rfl)).2
  rw [List.append_nil] at binary
  refine ⟨by decide, spelled, each, (copied _ _ spelled each).2 _, binary,
    refused _ [[5], [0xff], [0]] _ spelled ?_ ?_⟩
  · simp only [List.mem_cons, List.not_mem_nil, or_false, forall_eq_or_imp, forall_eq]
    obtain ⟨_, five⟩ := first
    exact ⟨⟨0, .scalar five⟩, ⟨0, .scalar negative⟩, ⟨0, .scalar zero⟩⟩
  · exact ⟨[0xff], by decide, .inl ⟨-1, ⟨true, negative⟩, by decide⟩⟩

end EntityFoundry.Payload
