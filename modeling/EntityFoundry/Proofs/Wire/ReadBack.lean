import EntityFoundry.Proofs.Wire.Delimited
import EntityFoundry.Wire.Writer
/-! What the writers put in front of a byte string reads back as what was written, and leaves that
byte string: numbers, heads, sequences and the entries of a record. Lengths are below 2^32, the
widest a head can spell. -/
namespace EntityFoundry.Wire
open Bytes

section Conditions
variable {α β : Type} {x : Reader α} {bytes rest : Bytes} {a : α}

structure ReadsIf (fits : Prop) (x : Reader α) (bytes : Bytes) (a : α) (rest : Bytes) : Prop where
  reads : fits → x bytes = .ok (a, rest)
  refuses : ¬ fits → x bytes = .error .depthLimit

namespace ReadsIf
variable {fits further : Prop}

theorem ofOk (read : x bytes = .ok (a, rest)) : ReadsIf True x bytes a rest :=
  ⟨fun _ => read, fun no => absurd trivial no⟩

theorem congr (read : ReadsIf fits x bytes a rest) (same : fits ↔ further) :
    ReadsIf further x bytes a rest :=
  ⟨fun yes => read.reads (same.mpr yes), fun no => read.refuses fun yes => no (same.mp yes)⟩

theorem bind {f : α → Reader β} {middle : Bytes} {b : β} (first : ReadsIf fits x bytes a middle)
    (second : ReadsIf further (f a) middle b rest) :
    ReadsIf (fits ∧ further) (x >>= f) bytes b rest := by
  refine ⟨fun both => (bindOk (first.reads both.1)).trans (second.reads both.2), fun neither => ?_⟩
  by_cases roomy : fits
  · exact (bindOk (first.reads roomy)).trans (second.refuses fun yes => neither ⟨roomy, yes⟩)
  · exact bindError (first.refuses roomy)

theorem after {f : α → Reader β} {middle : Bytes} {b : β} (read : x bytes = .ok (a, middle))
    (second : ReadsIf fits (f a) middle b rest) : ReadsIf fits (x >>= f) bytes b rest :=
  ((ofOk read).bind second).congr (iff_of_eq (true_and fits))

theorem map (f : α → β) (read : ReadsIf fits x bytes a rest) :
    ReadsIf fits (f <$> x) bytes (f a) rest := by
  refine ⟨fun yes => mapOk (read.reads yes), fun no => ?_⟩
  change (x bytes >>= fun p => pure (f p.1, p.2)) = _
  rw [read.refuses no]; rfl

theorem opened {room : Nat} (inside : ReadsIf fits x bytes a rest) :
    ReadsIf (room ≠ 0 ∧ fits) (if room = 0 then throw .depthLimit else x) bytes a rest := by
  by_cases full : room = 0
  · exact ⟨fun roomy => absurd full roomy.1, fun _ => by rw [if_pos full]; rfl⟩
  · rw [if_neg full]
    exact inside.congr (by simp [full])

end ReadsIf
end Conditions

theorem readNatOfNat {width n : Nat} (small : n < span width) (rest : Bytes) :
    readNat width (ofNat width n ++ rest) = .ok (n, rest) := by
  have front := takeBytesAppend .shortNumber (ofNat width n) rest
  rw [ofNatLength] at front
  have value : toNat (ofNat width n) = n := by rw [toNatOfNat, Nat.mod_eq_of_lt small]
  refine (bindOk front).trans ?_
  rw [value]; rfl

/-! Heads. A head is one byte with a small length in it, or a marker and a wide length. -/

theorem markerByte (base : Nat) {n : Nat} (byte : base + n < 0x100) :
    (UInt8.ofNat (base + n)).toNat = base + n := by
  rw [UInt8.toNat_ofNat', Nat.mod_eq_of_lt byte]

theorem fixMapMarker {n : Nat} (small : n < 16) :
    Marker.ofByte (UInt8.ofNat (0x80 + n)) = .fixMap n := by
  have byte := markerByte 0x80 (n := n) (by omega)
  simp only [Marker.ofByte, byte]
  rw [if_neg (by omega), if_pos (by omega), Nat.add_sub_cancel_left]

theorem fixArrayMarker {n : Nat} (small : n < 16) :
    Marker.ofByte (UInt8.ofNat (0x90 + n)) = .fixArray n := by
  have byte := markerByte 0x90 (n := n) (by omega)
  simp only [Marker.ofByte, byte]
  rw [if_neg (by omega), if_neg (by omega), if_pos (by omega), Nat.add_sub_cancel_left]

theorem fixStrMarker {n : Nat} (small : n < 32) :
    Marker.ofByte (UInt8.ofNat (0xa0 + n)) = .fixStr n := by
  have byte := markerByte 0xa0 (n := n) (by omega)
  simp only [Marker.ofByte, byte]
  rw [if_neg (by omega), if_neg (by omega), if_neg (by omega), if_pos (by omega),
    Nat.add_sub_cancel_left]

theorem fixPosMarker {n : Nat} (small : n < 0x80) : Marker.ofByte (UInt8.ofNat n) = .fixPos n := by
  have byte : (UInt8.ofNat n).toNat = n := by
    rw [UInt8.toNat_ofNat', Nat.mod_eq_of_lt (by omega)]
  simp only [Marker.ofByte, byte]
  rw [if_pos small]

theorem readHeadByte {b : UInt8} {m : Marker} (spelled : Marker.ofByte b = m) (rest : Bytes) :
    readHead (b :: rest) = readHeadAfter m rest := by
  rw [← spelled]; rfl

theorem readHeadWide {marker : UInt8} {width n : Nat} (next : Nat → Reader Head)
    (wide : readHeadAfter (Marker.ofByte marker) = readNat width >>= next)
    (small : n < span width) (rest : Bytes) :
    readHead (putWide marker width n rest) = next n rest := by
  rw [putWide, readHeadByte rfl, wide]
  exact bindOk (readNatOfNat small rest)

theorem readHeadMap {n : Nat} (small : n < UInt32.size) (entries : Bytes) :
    readHead (putMap n entries) = .ok (.map n, entries) := by
  let next (n : Nat) : Reader Head := pure (.map n)
  unfold putMap
  split
  next fix => exact readHeadByte (fixMapMarker fix) entries
  next =>
    split
    next short => exact readHeadWide next rfl short entries
    next => exact readHeadWide next rfl small entries

theorem readHeadArray {n : Nat} (small : n < UInt32.size) (elements : Bytes) :
    readHead (putArray n elements) = .ok (.array n, elements) := by
  let next (n : Nat) : Reader Head := pure (.array n)
  unfold putArray
  split
  next fix => exact readHeadByte (fixArrayMarker fix) elements
  next =>
    split
    next short => exact readHeadWide next rfl short elements
    next => exact readHeadWide next rfl small elements

theorem readTextAppend (raw rest : Bytes) :
    readText raw.length (raw ++ rest) = .ok (.text raw, rest) :=
  bindOk (takeBytesAppend .shortContents raw rest)

theorem readBinaryAppend (raw rest : Bytes) :
    readBinary raw.length (raw ++ rest) = .ok (.binary raw, rest) :=
  bindOk (takeBytesAppend .shortContents raw rest)

theorem readHeadText {s : String} (small : (Text.Utf8.encode s).length < UInt32.size)
    (rest : Bytes) :
    readHead (putText s rest) = .ok (.text (Text.Utf8.encode s), rest) := by
  have contents := readTextAppend (Text.Utf8.encode s) rest
  simp only [putText]
  split
  next fix => exact (readHeadByte (fixStrMarker fix) _).trans contents
  next =>
    split
    next byte => exact (readHeadWide _ rfl byte _).trans contents
    next =>
      split
      next short => exact (readHeadWide _ rfl short _).trans contents
      next => exact (readHeadWide _ rfl small _).trans contents

theorem readHeadBinary {raw : Bytes} (small : raw.length < UInt32.size) (rest : Bytes) :
    readHead (putBinary raw rest) = .ok (.binary raw, rest) := by
  have contents := readBinaryAppend raw rest
  simp only [putBinary]
  split
  next byte => exact (readHeadWide _ rfl byte _).trans contents
  next =>
    split
    next short => exact (readHeadWide _ rfl short _).trans contents
    next => exact (readHeadWide _ rfl small _).trans contents

theorem readKeyText {s : String} (small : (Text.Utf8.encode s).length < UInt32.size) (room : Nat)
    (rest : Bytes) : readKey room (putText s rest) = .ok (.name (Text.Utf8.encode s), rest) :=
  bindOk (readHeadText small rest)

/-! Numbers. -/

theorem readScalarByte {α : Type} {expected : String} {accept : Scalar → Except Fault α}
    {b : UInt8} (scalar : Reader Scalar) {bytes rest : Bytes} {s : Scalar} {x : α}
    (starts : readScalar? (Marker.ofByte b) = some scalar) (read : scalar bytes = .ok (s, rest))
    (accepted : accept s = .ok x) :
    (Target.scalar expected accept).read (b :: bytes) = .ok (x, rest) := by
  refine (bindOk (rfl : readMarker (b :: bytes) = .ok (Marker.ofByte b, bytes))).trans ?_
  rw [starts]
  refine (bindOk read).trans ?_
  rw [accepted]; rfl

theorem readScalarUnsigned {α : Type} {expected : String} {accept : Scalar → Except Fault α}
    {n : Nat} {x : α} (word : n < UInt64.size) (accepted : accept (.int false n) = .ok x)
    (rest : Bytes) :
    (Target.scalar expected accept).read (putUnsigned n rest) = .ok (x, rest) := by
  have wide (width : Nat) (small : n < span width) :
      (do return Scalar.int false (← readNat width) : Reader Scalar) (ofNat width n ++ rest) =
        .ok (.int false n, rest) := bindOk (readNatOfNat small rest)
  unfold putUnsigned
  split
  next fix =>
    refine readScalarByte (pure (.int false n)) ?_ rfl accepted
    rw [fixPosMarker fix]; rfl
  next =>
    split
    next byte => exact readScalarByte _ rfl (wide 1 byte) accepted
    next =>
      split
      next short => exact readScalarByte _ rfl (wide 2 short) accepted
      next =>
        split
        next long => exact readScalarByte _ rfl (wide 4 long) accepted
        next => exact readScalarByte _ rfl (wide 8 word) accepted

theorem readUnsigned {bound n : Nat} (expected : String) (below : n < bound)
    (word : n < UInt64.size) (rest : Bytes) :
    (Target.unsigned bound expected).read (putUnsigned n rest) = .ok (n, rest) := by
  refine readScalarUnsigned word ?_ rest
  have inside : (0 : Int) ≤ n ∧ (n : Int) < bound := ⟨by omega, by omega⟩
  simp only [inside, and_self, if_true, Int.toNat_natCast]

theorem readIndex {n : Nat} (word : n < UInt64.size) (rest : Bytes) :
    Target.index.read (putUnsigned n rest) = .ok (n, rest) :=
  readUnsigned "usize" word word rest

/-! Sequences and records. -/

theorem readManyPut {α : Type} {item : Reader α} {put : α → Bytes → Bytes} {fits : α → Prop}
    {xs : List α} (readBack : ∀ x ∈ xs, ∀ rest, ReadsIf (fits x) item (put x rest) x rest)
    (seen : List α) (rest : Bytes) :
    ReadsIf (∀ x ∈ xs, fits x) (readMany item xs.length seen) (xs.foldr put rest)
      (seen.reverse ++ xs) rest := by
  induction xs generalizing seen with
  | nil =>
    have done : readMany item 0 seen rest = .ok (seen.reverse ++ [], rest) :=
      congrArg (fun ys => Except.ok (ys, rest)) (List.append_nil seen.reverse).symm
    exact (ReadsIf.ofOk done).congr (by simp)
  | cons x xs ih =>
    have first := readBack x (by simp) (xs.foldr put rest)
    have others := ih (fun y member => readBack y (by simp [member])) (x :: seen)
    rw [List.reverse_cons, List.append_assoc, List.singleton_append] at others
    exact (first.bind others).congr List.forall_mem_cons.symm

theorem readListPut {α : Type} {room : Nat} {item : Target α} {put : α → Bytes → Bytes}
    {fits : α → Prop} {xs : List α} (few : xs.length < UInt32.size)
    (readBack : ∀ x ∈ xs, ∀ rest, ReadsIf (fits x) item.read (put x rest) x rest) (rest : Bytes) :
    ReadsIf (room ≠ 0 ∧ ∀ x ∈ xs, fits x) (Target.list room item).read
      (putArray xs.length (xs.foldr put rest)) xs rest :=
  .after (readHeadArray few _) (readManyPut readBack [] rest).opened

theorem findFirst {σ : Type} (slot : Slot σ) (slots : List (Slot σ)) :
    Slot.find (slot :: slots) (.name (Text.Utf8.encode slot.name)) = some slot := by
  simp [Slot.find]

theorem findLater {σ : Type} (slot : Slot σ) {raw : Bytes}
    (different : Text.Utf8.encode slot.name ≠ raw) (slots : List (Slot σ)) :
    Slot.find (slot :: slots) (.name raw) = Slot.find slots (.name raw) := by
  simp [Slot.find, different]

theorem readEntriesDone {σ : Type} (room : Nat) (slots : List (Slot σ)) (s : σ) (rest : Bytes) :
    ReadsIf True (Slot.readEntries room slots 0 s) rest s rest := .ofOk rfl

theorem readEntryKnown {σ : Type} {room n : Nat} {slots : List (Slot σ)} {s u : σ}
    {bytes value middle rest : Bytes} {key : Key} {slot : Slot σ} {put : σ → σ}
    {fits further : Prop} (keyed : readKey room bytes = .ok (key, value))
    (known : Slot.find slots key = some slot) (fresh : slot.filled s = false)
    (read : ReadsIf fits slot.read value put middle)
    (later : ReadsIf further (Slot.readEntries room slots n (put s)) middle u rest) :
    ReadsIf (fits ∧ further) (Slot.readEntries room slots (n + 1) s) bytes u rest := by
  refine .after keyed ?_
  simp only [known, fresh, Bool.false_eq_true, if_false]
  exact read.bind later

theorem readEntryUnknown {σ : Type} {room n : Nat} {slots : List (Slot σ)} {s u : σ}
    {bytes value middle rest : Bytes} {key : Key} {fits further : Prop}
    (keyed : readKey room bytes = .ok (key, value)) (unknown : Slot.find slots key = none)
    (skipped : ReadsIf fits (skip room) value () middle)
    (later : ReadsIf further (Slot.readEntries room slots n s) middle u rest) :
    ReadsIf (fits ∧ further) (Slot.readEntries room slots (n + 1) s) bytes u rest := by
  refine .after keyed ?_
  simp only [unknown]
  exact skipped.bind later

theorem readRecordMap {σ τ : Type} {shape : Shape σ τ} {room n : Nat} {entries rest : Bytes}
    {s : σ} {x : τ} {fits : Prop} (few : n < UInt32.size)
    (read : ReadsIf fits (Slot.readEntries (room - 1) shape.slots n shape.start) entries s rest)
    (complete : shape.finish .missingField s = .ok x) :
    ReadsIf (room ≠ 0 ∧ fits) (shape.target room).read (putMap n entries) x rest := by
  refine .after (readHeadMap few entries) ?_
  have finished : (liftM (shape.finish .missingField s) : Reader τ) rest = .ok (x, rest) := by
    rw [complete]; rfl
  exact ((read.bind (.ofOk finished)).congr (iff_of_eq (and_true fits))).opened

end EntityFoundry.Wire
