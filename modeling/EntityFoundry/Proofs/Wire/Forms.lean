import EntityFoundry.Proofs.Wire.ReadBack
import EntityFoundry.Proofs.Wire.Skipping
import EntityFoundry.Proofs.Wire.Yields
/-! The forms of the wire as a grammar: which bytes spell a head, and which are one whole item with
a given number of containers open at once. Main statement: `skip` takes exactly the items, each up
to its last byte. -/
namespace EntityFoundry.Wire
open Bytes

/-! First bytes that say how many bytes the number or length after them has. -/

def unsignedForms : List (UInt8 × Nat) := [(0xcc, 1), (0xcd, 2), (0xce, 4), (0xcf, 8)]
def signedForms : List (UInt8 × Nat) := [(0xd0, 1), (0xd1, 2), (0xd2, 4), (0xd3, 8)]
def textForms : List (UInt8 × Nat) := [(0xd9, 1), (0xda, 2), (0xdb, 4)]
def binaryForms : List (UInt8 × Nat) := [(0xc4, 1), (0xc5, 2), (0xc6, 4)]
def arrayForms : List (UInt8 × Nat) := [(0xdc, 2), (0xdd, 4)]
def mapForms : List (UInt8 × Nat) := [(0xde, 2), (0xdf, 4)]
def extForms : List (UInt8 × Nat) := [(0xc7, 1), (0xc8, 2), (0xc9, 4)]

def fixExtForms : List (UInt8 × Nat) := [(0xd4, 1), (0xd5, 2), (0xd6, 4), (0xd7, 8), (0xd8, 16)]

/-- Any form of a head, the shortest or not. Text and byte strings are spelled with their contents;
negative numbers are in two's complement. -/
inductive Spells : Bytes → Head → Prop
  | nil : Spells [0xc0] (.scalar .nil)
  | no : Spells [0xc2] (.scalar (.bool false))
  | yes : Spells [0xc3] (.scalar (.bool true))
  | fixPos {n : Nat} (small : n < 0x80) : Spells [UInt8.ofNat n] (.scalar (.int false n))
  | fixNeg {n : Nat} (small : n < 32) :
      Spells [UInt8.ofNat (0xe0 + n)] (.scalar (.int true (n - 32)))
  | unsigned {m : UInt8} {w n : Nat} (form : (m, w) ∈ unsignedForms) (small : n < span w) :
      Spells (m :: ofNat w n) (.scalar (.int false n))
  | signed {m : UInt8} {w : Nat} {i : Int} (form : (m, w) ∈ signedForms)
      (low : -span w ≤ 2 * i) (high : 2 * i < span w) :
      Spells (m :: ofNat w (i % span w).toNat) (.scalar (.int true i))
  | single (x : Single) : Spells (0xca :: ofNat 4 x.bits.toNat) (.scalar (.single x))
  | double (x : Double) : Spells (0xcb :: ofNat 8 x.bits.toNat) (.scalar (.double x))
  | fixText {raw : Bytes} (short : raw.length < 32) :
      Spells (UInt8.ofNat (0xa0 + raw.length) :: raw) (.text raw)
  | text {m : UInt8} {w : Nat} {raw : Bytes} (form : (m, w) ∈ textForms)
      (short : raw.length < span w) : Spells (m :: (ofNat w raw.length ++ raw)) (.text raw)
  | binary {m : UInt8} {w : Nat} {raw : Bytes} (form : (m, w) ∈ binaryForms)
      (short : raw.length < span w) : Spells (m :: (ofNat w raw.length ++ raw)) (.binary raw)
  | fixArray {n : Nat} (small : n < 16) : Spells [UInt8.ofNat (0x90 + n)] (.array n)
  | array {m : UInt8} {w n : Nat} (form : (m, w) ∈ arrayForms) (small : n < span w) :
      Spells (m :: ofNat w n) (.array n)
  | fixMap {n : Nat} (small : n < 16) : Spells [UInt8.ofNat (0x80 + n)] (.map n)
  | map {m : UInt8} {w n : Nat} (form : (m, w) ∈ mapForms) (small : n < span w) :
      Spells (m :: ofNat w n) (.map n)
  | fixExt {m : UInt8} {n : Nat} (form : (m, n) ∈ fixExtForms) : Spells [m] (.ext n)
  | ext {m : UInt8} {w n : Nat} (form : (m, w) ∈ extForms) (small : n < span w) :
      Spells (m :: ofNat w n) (.ext n)

/-- `Item room bytes`: the bytes are one item, with at most `room` containers open at once. The
contents of an extension item follow a byte for its kind. -/
inductive Item : (room : Nat) → Bytes → Prop
  | scalar {room : Nat} {b : Bytes} {x : Scalar} (spelled : Spells b (.scalar x)) : Item room b
  | text {room : Nat} {b raw : Bytes} (spelled : Spells b (.text raw)) : Item room b
  | binary {room : Nat} {b raw : Bytes} (spelled : Spells b (.binary raw)) : Item room b
  | array {room : Nat} {b : Bytes} {items : List Bytes} (spelled : Spells b (.array items.length))
      (each : ∀ x ∈ items, Item room x) : Item (room + 1) (b ++ items.flatten)
  | map {room : Nat} {b : Bytes} {entries : List (Bytes × Bytes)}
      (spelled : Spells b (.map entries.length)) (keys : ∀ e ∈ entries, Item room e.1)
      (values : ∀ e ∈ entries, Item room e.2) :
      Item (room + 1) (b ++ entries.flatMap fun e => e.1 ++ e.2)
  | ext {room : Nat} {b raw : Bytes} {kind : UInt8} (spelled : Spells b (.ext raw.length)) :
      Item (room + 1) (b ++ kind :: raw)

/-! Reading what is spelled. -/

theorem toSignedMod {w : Nat} {i : Int} (low : -span w ≤ 2 * i) (high : 2 * i < span w) :
    toSigned w (i % span w).toNat = i := by
  unfold toSigned
  by_cases negative : i < 0
  · have wrapped : i % span w = i + span w := by
      rw [← Int.add_emod_right, Int.emod_eq_of_lt (by omega) (by omega)]
    rw [wrapped, if_neg (by omega)]
    omega
  · rw [Int.emod_eq_of_lt (by omega) (by omega), if_pos (by omega)]
    omega

theorem modBelowSpan (w : Nat) (i : Int) : (i % span w).toNat < span w := by
  have positive : (0 : Int) < span w := Int.natCast_pos.mpr (Nat.pow_pos (by decide))
  have below := Int.emod_lt_of_pos i positive
  have above := Int.emod_nonneg i (Int.ne_of_gt positive)
  omega

theorem fixNegMarker {n : Nat} (small : n < 32) :
    Marker.ofByte (UInt8.ofNat (0xe0 + n)) = .fixNeg (n - 32) :=
  (by decide : ∀ n < 32, Marker.ofByte (UInt8.ofNat (0xe0 + n)) = .fixNeg (n - 32)) n small

theorem readHeadNumber {m : UInt8} {w n : Nat} {scalar : Reader Scalar} {s : Scalar}
    (starts : readScalar? (Marker.ofByte m) = some scalar)
    (read : ∀ rest, scalar (ofNat w n ++ rest) = .ok (s, rest)) (rest : Bytes) :
    readHead (putWide m w n rest) = .ok (.scalar s, rest) :=
  (readHeadByte rfl _).trans (readHeadScalar starts (read rest))

theorem readHeadForm {m : UInt8} {w n : Nat} (marker : Nat → Marker) {head : Nat → Head}
    {forms : List (UInt8 × Nat)} (form : (m, w) ∈ forms)
    (known : ∀ f ∈ forms, Marker.ofByte f.1 = marker f.2)
    (wide : readHeadAfter (marker w) = readNat w >>= fun n => pure (head n)) (small : n < span w)
    (rest : Bytes) : readHead (putWide m w n rest) = .ok (head n, rest) :=
  readHeadWide (fun n => pure (head n)) (by rw [known _ form]; exact wide) small rest

def ReadsAs {α : Type} (x : Reader α) (b : Bytes) (a : α) : Prop :=
  ∀ rest, x (b ++ rest) = .ok (a, rest)

theorem Spells.reads {b : Bytes} {head : Head} (spelled : Spells b head) :
    ReadsAs readHead b head := by
  intro rest
  cases spelled with
  | nil | no | yes => rfl
  | fixPos small => exact (readHeadByte (fixPosMarker small) rest).trans rfl
  | fixNeg small => exact (readHeadByte (fixNegMarker small) rest).trans rfl
  | @unsigned m w n form small =>
    have known : ∀ f ∈ unsignedForms, Marker.ofByte f.1 = .unsigned f.2 := by decide
    exact readHeadNumber (by rw [known _ form]; rfl) (fun rest => bindOk (readNatOfNat small rest)) rest
  | @signed m w i form low high =>
    have known : ∀ f ∈ signedForms, Marker.ofByte f.1 = .signed f.2 := by decide
    refine readHeadNumber (by rw [known _ form]; rfl) (fun rest => ?_) rest
    have read := bindOk (f := fun n => pure (Scalar.int true (toSigned w n)))
      (readNatOfNat (modBelowSpan w i) rest)
    rwa [toSignedMod low high] at read
  | single x =>
    have small : x.bits.toNat < span 4 := x.bits.toNat_lt
    refine readHeadNumber rfl (fun rest => (bindOk (readNatOfNat small rest)).trans ?_) rest
    rw [if_pos rfl, UInt32.ofNat_toNat]
    rfl
  | double x =>
    have small : x.bits.toNat < span 8 := x.bits.toNat_lt
    refine readHeadNumber rfl (fun rest => (bindOk (readNatOfNat small rest)).trans ?_) rest
    rw [if_neg (by decide), UInt64.ofNat_toNat]
    rfl
  | fixText short =>
    exact (readHeadByte (fixStrMarker short) _).trans (bindOk (takeBytesAppend .shortContents _ rest))
  | @text m w raw form short =>
    have known : ∀ f ∈ textForms, Marker.ofByte f.1 = .str f.2 := by decide
    rw [List.cons_append, List.append_assoc]
    have wide := readHeadWide readText (by rw [known _ form]; rfl) short (raw ++ rest)
    exact wide.trans (bindOk (takeBytesAppend .shortContents raw rest))
  | @binary m w raw form short =>
    have known : ∀ f ∈ binaryForms, Marker.ofByte f.1 = .bin f.2 := by decide
    rw [List.cons_append, List.append_assoc]
    have wide := readHeadWide readBinary (by rw [known _ form]; rfl) short (raw ++ rest)
    exact wide.trans (bindOk (takeBytesAppend .shortContents raw rest))
  | fixArray small => exact (readHeadByte (fixArrayMarker small) rest).trans rfl
  | array form small => exact readHeadForm .array form (by decide) rfl small rest
  | fixMap small => exact (readHeadByte (fixMapMarker small) rest).trans rfl
  | map form small => exact readHeadForm .map form (by decide) rfl small rest
  | @fixExt m n form =>
    have known : ∀ f ∈ fixExtForms, Marker.ofByte f.1 = .fixExt f.2 := by decide
    exact (readHeadByte (known _ form) rest).trans rfl
  | ext form small => exact readHeadForm .ext form (by decide) rfl small rest

theorem ReadsAs.bind {α β : Type} {x : Reader α} {f : α → Reader β} {b c : Bytes} {a : α} {d : β}
    (first : ReadsAs x b a) (second : ReadsAs (f a) c d) : ReadsAs (x >>= f) (b ++ c) d := by
  intro rest
  rw [List.append_assoc]
  exact (bindOk (first (c ++ rest))).trans (second rest)

theorem timesReads {x : Reader Unit} {items : List Bytes} (each : ∀ b ∈ items, ReadsAs x b ()) :
    ReadsAs (times items.length x) items.flatten () := by
  induction items with
  | nil => exact fun rest => rfl
  | cons b items ih =>
    exact (each b (by simp)).bind (ih fun c member => each c (by simp [member]))

theorem Spells.skips {b c : Bytes} {head : Head} (spelled : Spells b head) {room : Nat}
    (after : ReadsAs (skipAfter room head) c ()) : ReadsAs (skip room) (b ++ c) () := by
  rw [skipHeads]
  exact spelled.reads.bind after

namespace Item

theorem skips {room : Nat} {b : Bytes} (item : Item room b) : ReadsAs (skip room) b () := by
  induction item with
  | @scalar room b _ spelled | @text room b _ spelled | @binary room b _ spelled =>
    have skipped : ReadsAs (skip room) (b ++ []) () :=
      spelled.skips fun rest => by cases room <;> rfl
    rwa [List.append_nil] at skipped
  | array spelled _ ih => exact spelled.skips (timesReads ih)
  | @map room b entries spelled _ _ keys values =>
    have each : ∀ b ∈ entries.map (fun e => e.1 ++ e.2), ReadsAs (do skip room; skip room) b () :=
      List.forall_mem_map.mpr fun e member => (keys e member).bind (values e member)
    have pairs := timesReads each
    rw [List.length_map, ← List.flatMap_def] at pairs
    exact spelled.skips pairs
  | @ext room b raw kind spelled =>
    refine spelled.skips fun rest => ?_
    have taken := takeBytesAppend .shortContents raw rest
    exact (bindOk (rfl : takeByte _ (kind :: (raw ++ rest)) = .ok (kind, raw ++ rest))).trans
      ((bindOk taken).trans rfl)

theorem ends {room more : Nat} {b rest after : Bytes} (item : Item room b)
    (skipped : skip more (b ++ rest) = .ok ((), after)) : after = rest := by
  have one := skipMono (Nat.le_max_left room more) (item.skips rest)
  have other := skipMono (Nat.le_max_right room more) skipped
  cases one.symm.trans other
  rfl

theorem mono {room more : Nat} {b : Bytes} (item : Item room b) (enough : room ≤ more) :
    Item more b := by
  induction item generalizing more with
  | scalar spelled => exact .scalar spelled
  | text spelled => exact .text spelled
  | binary spelled => exact .binary spelled
  | array spelled _ ih =>
    obtain ⟨more, rfl⟩ := Nat.exists_eq_add_of_le' (Nat.le_of_add_left_le enough)
    exact .array spelled fun x member => ih x member (by omega)
  | map spelled _ _ keys values =>
    obtain ⟨more, rfl⟩ := Nat.exists_eq_add_of_le' (Nat.le_of_add_left_le enough)
    exact .map spelled (fun e member => keys e member (by omega))
      fun e member => values e member (by omega)
  | ext spelled =>
    obtain ⟨more, rfl⟩ := Nat.exists_eq_add_of_le' (Nat.le_of_add_left_le enough)
    exact .ext spelled

end Item

/-! What is read was spelled. -/

theorem ofNatToNat (bytes : Bytes) : ofNat bytes.length bytes.toNat = bytes := by
  induction bytes using List.reverseRecOn with
  | nil => rfl
  | append_singleton bytes b ih =>
    have byte := b.toNat_lt
    have high : (toNat bytes * 256 + b.toNat) / 256 = toNat bytes := by omega
    rw [List.length_append, List.length_singleton, ofNat, toNatSnoc, high, ih]
    congr 2
    rw [← UInt8.toNat_inj, UInt8.toNat_ofNat']
    omega

theorem takeBytesParts {fault : Fault} {n : Nat} {bytes front rest : Bytes}
    (read : takeBytes fault n bytes = .ok (front, rest)) :
    bytes = front ++ rest ∧ front.length = n := by
  change (if (bytes.take n).length = n then .ok (bytes.take n, bytes.drop n) else .error fault) =
    Except.ok (front, rest) at read
  split at read
  next full =>
    cases read
    exact ⟨(List.take_append_drop n bytes).symm, full⟩
  next => cases read

theorem readNatParts {w n : Nat} {bytes rest : Bytes} (read : readNat w bytes = .ok (n, rest)) :
    bytes = ofNat w n ++ rest ∧ n < span w := by
  obtain ⟨front, middle, taken, made⟩ := bindParts read
  obtain ⟨rfl, rfl⟩ := takeBytesParts taken
  cases made
  exact ⟨by rw [ofNatToNat], front.toNatBound⟩

def Marker.spelledBy (b : UInt8) : Marker → Bool
  | .fixPos n => b = UInt8.ofNat n ∧ n < 0x80
  | .fixNeg i => b = UInt8.ofNat (0xe0 + (i + 32).toNat) ∧ -32 ≤ i ∧ i < 0
  | .fixMap n => b = UInt8.ofNat (0x80 + n) ∧ n < 16
  | .fixArray n => b = UInt8.ofNat (0x90 + n) ∧ n < 16
  | .fixStr n => b = UInt8.ofNat (0xa0 + n) ∧ n < 32
  | .fixExt n => (b, n) ∈ fixExtForms
  | .null => b = 0xc0
  | .reserved => b = 0xc1
  | .bool yes => b = if yes then 0xc3 else 0xc2
  | .bin w => (b, w) ∈ binaryForms
  | .ext w => (b, w) ∈ extForms
  | .str w => (b, w) ∈ textForms
  | .array w => (b, w) ∈ arrayForms
  | .map w => (b, w) ∈ mapForms
  | .float w => (b, w) ∈ [(0xca, 4), (0xcb, 8)]
  | .unsigned w => (b, w) ∈ unsignedForms
  | .signed w => (b, w) ∈ signedForms

theorem Marker.ofByteSpelled (b : UInt8) : (Marker.ofByte b).spelledBy b = true := by
  have each : ∀ n < 256, (Marker.ofByte (UInt8.ofNat n)).spelledBy (UInt8.ofNat n) = true := by
    decide +kernel
  have this := each b.toNat b.toNat_lt
  rwa [UInt8.ofNat_toNat] at this

theorem toSignedParts {w n : Nat} (small : n < span w) :
    -span w ≤ 2 * toSigned w n ∧ 2 * toSigned w n < span w ∧ (toSigned w n % span w).toNat = n := by
  unfold toSigned
  split
  next => exact ⟨by omega, by omega, by rw [Int.emod_eq_of_lt (by omega) (by omega)]; rfl⟩
  next =>
    refine ⟨by omega, by omega, ?_⟩
    rw [← Int.add_emod_right, Int.emod_eq_of_lt (by omega) (by omega)]
    omega

theorem spelledOfScalar {m : UInt8} {scalar : Reader Scalar} {s : Scalar} {bytes rest : Bytes}
    (starts : readScalar? (Marker.ofByte m) = some scalar) (read : scalar bytes = .ok (s, rest)) :
    ∃ b, m :: bytes = b ++ rest ∧ Spells b (.scalar s) := by
  have spelled := Marker.ofByteSpelled m
  cases marker : Marker.ofByte m <;> rw [marker] at starts spelled <;>
    simp only [Marker.spelledBy, decide_eq_true_eq] at spelled <;> cases starts
  case null =>
    cases read
    obtain rfl := spelled
    exact ⟨[_], rfl, .nil⟩
  case bool yes =>
    cases read
    obtain rfl := spelled
    cases yes with
    | false => exact ⟨[_], rfl, .no⟩
    | true => exact ⟨[_], rfl, .yes⟩
  case fixPos n =>
    cases read
    obtain ⟨rfl, small⟩ := spelled
    exact ⟨[_], rfl, .fixPos small⟩
  case fixNeg i =>
    cases read
    obtain ⟨rfl, low, high⟩ := spelled
    have form := Spells.fixNeg (n := (i + 32).toNat) (by omega)
    rw [show (((i + 32).toNat : Nat) : Int) - 32 = i by omega] at form
    exact ⟨[_], rfl, form⟩
  case unsigned w =>
    obtain ⟨n, middle, number, made⟩ := bindParts read
    obtain ⟨rfl, small⟩ := readNatParts number
    cases made
    exact ⟨_, rfl, .unsigned spelled small⟩
  case signed w =>
    obtain ⟨n, middle, number, made⟩ := bindParts read
    obtain ⟨rfl, small⟩ := readNatParts number
    cases made
    obtain ⟨low, high, back⟩ := toSignedParts small
    have form := Spells.signed spelled low high
    rw [back] at form
    exact ⟨_, rfl, form⟩
  case float w =>
    obtain ⟨n, middle, number, made⟩ := bindParts read
    obtain ⟨rfl, small⟩ := readNatParts number
    cases made
    simp only [List.mem_cons, Prod.mk.injEq, List.not_mem_nil, or_false] at spelled
    rcases spelled with ⟨rfl, rfl⟩ | ⟨rfl, rfl⟩
    · have form := Spells.single ⟨UInt32.ofNat n⟩
      rw [UInt32.toNat_ofNat_of_lt' small] at form
      exact ⟨_, rfl, form⟩
    · have form := Spells.double ⟨UInt64.ofNat n⟩
      rw [UInt64.toNat_ofNat_of_lt' small] at form
      exact ⟨_, rfl, form⟩

theorem readTextParts {n : Nat} {bytes rest : Bytes} {head : Head}
    (read : readText n bytes = .ok (head, rest)) :
    ∃ raw : Bytes, bytes = raw ++ rest ∧ raw.length = n ∧ head = .text raw := by
  obtain ⟨raw, middle, taken, made⟩ := bindParts read
  obtain ⟨rfl, full⟩ := takeBytesParts taken
  cases made
  exact ⟨raw, rfl, full, rfl⟩

theorem readBinaryParts {n : Nat} {bytes rest : Bytes} {head : Head}
    (read : readBinary n bytes = .ok (head, rest)) :
    ∃ raw : Bytes, bytes = raw ++ rest ∧ raw.length = n ∧ head = .binary raw := by
  obtain ⟨raw, middle, taken, made⟩ := bindParts read
  obtain ⟨rfl, full⟩ := takeBytesParts taken
  cases made
  exact ⟨raw, rfl, full, rfl⟩

theorem spelledOfMarker {m : UInt8} {bytes rest : Bytes} {head : Head}
    (read : readHeadAfter (Marker.ofByte m) bytes = .ok (head, rest)) :
    ∃ b, m :: bytes = b ++ rest ∧ Spells b head := by
  have spelled := Marker.ofByteSpelled m
  cases starts : readScalar? (Marker.ofByte m) with
  | some scalar =>
    unfold readHeadAfter at read
    rw [starts] at read
    obtain ⟨s, middle, value, made⟩ := bindParts read
    cases made
    exact spelledOfScalar starts value
  | none =>
    cases marker : Marker.ofByte m <;> rw [marker] at starts read spelled <;>
      simp only [Marker.spelledBy, decide_eq_true_eq] at spelled
    case fixStr n =>
      obtain ⟨rfl, small⟩ := spelled
      obtain ⟨raw, rfl, rfl, rfl⟩ := readTextParts read
      exact ⟨_ :: raw, rfl, .fixText small⟩
    case str w =>
      obtain ⟨n, middle, number, contents⟩ := bindParts read
      obtain ⟨rfl, small⟩ := readNatParts number
      obtain ⟨raw, rfl, rfl, rfl⟩ := readTextParts contents
      exact ⟨m :: (ofNat w raw.length ++ raw), by simp, .text spelled small⟩
    case bin w =>
      obtain ⟨n, middle, number, contents⟩ := bindParts read
      obtain ⟨rfl, small⟩ := readNatParts number
      obtain ⟨raw, rfl, rfl, rfl⟩ := readBinaryParts contents
      exact ⟨m :: (ofNat w raw.length ++ raw), by simp, .binary spelled small⟩
    case fixArray n =>
      cases read
      obtain ⟨rfl, small⟩ := spelled
      exact ⟨[_], rfl, .fixArray small⟩
    case fixMap n =>
      cases read
      obtain ⟨rfl, small⟩ := spelled
      exact ⟨[_], rfl, .fixMap small⟩
    case fixExt n =>
      cases read
      exact ⟨[m], rfl, .fixExt spelled⟩
    case array w =>
      obtain ⟨n, middle, number, made⟩ := bindParts read
      obtain ⟨rfl, small⟩ := readNatParts number
      cases made
      exact ⟨_, rfl, .array spelled small⟩
    case map w =>
      obtain ⟨n, middle, number, made⟩ := bindParts read
      obtain ⟨rfl, small⟩ := readNatParts number
      cases made
      exact ⟨_, rfl, .map spelled small⟩
    case ext w =>
      obtain ⟨n, middle, number, made⟩ := bindParts read
      obtain ⟨rfl, small⟩ := readNatParts number
      cases made
      exact ⟨_, rfl, .ext spelled small⟩
    case reserved => cases read
    all_goals cases starts

theorem spelledOfHead {bytes rest : Bytes} {head : Head}
    (read : readHead bytes = .ok (head, rest)) : ∃ b, bytes = b ++ rest ∧ Spells b head := by
  cases bytes with
  | nil => cases read
  | cons m bytes => exact spelledOfMarker read

/-! What is skipped is an item. -/

theorem itemsOfTimes {x : Reader Unit} {p : Bytes → Prop}
    (one : ∀ bytes rest, x bytes = .ok ((), rest) → ∃ b, bytes = b ++ rest ∧ p b) (n : Nat)
    {bytes rest : Bytes} (read : times n x bytes = .ok ((), rest)) :
    ∃ items : List Bytes, items.length = n ∧ bytes = items.flatten ++ rest ∧ ∀ b ∈ items, p b := by
  induction n generalizing bytes with
  | zero =>
    cases read
    exact ⟨[], rfl, rfl, nofun⟩
  | succ n ih =>
    obtain ⟨_, middle, first, others⟩ := bindParts read
    obtain ⟨b, rfl, held⟩ := one bytes middle first
    obtain ⟨items, rfl, rfl, each⟩ := ih others
    exact ⟨b :: items, rfl, by simp, List.forall_mem_cons.mpr ⟨held, each⟩⟩

theorem entriesOfPairs {room : Nat} {items : List Bytes}
    (each : ∀ b ∈ items, ∃ e : Bytes × Bytes, b = e.1 ++ e.2 ∧ Item room e.1 ∧ Item room e.2) :
    ∃ entries : List (Bytes × Bytes), entries.length = items.length ∧
      items.flatten = entries.flatMap (fun e => e.1 ++ e.2) ∧
      (∀ e ∈ entries, Item room e.1) ∧ ∀ e ∈ entries, Item room e.2 := by
  induction items with
  | nil => exact ⟨[], rfl, rfl, nofun, nofun⟩
  | cons b items ih =>
    obtain ⟨⟨e, rfl, key, value⟩, rest⟩ := List.forall_mem_cons.mp each
    obtain ⟨entries, same, spelled, keys, values⟩ := ih rest
    exact ⟨e :: entries, by simp [same], by simp [spelled], List.forall_mem_cons.mpr ⟨key, keys⟩,
      List.forall_mem_cons.mpr ⟨value, values⟩⟩

theorem itemOfShut {head : Head} {b middle rest : Bytes} (spelled : Spells b head) (room : Nat)
    (after : skipAfter 0 head middle = .ok ((), rest)) : middle = rest ∧ Item room b := by
  cases head with
  | scalar s =>
    cases after
    exact ⟨rfl, .scalar spelled⟩
  | text raw =>
    cases after
    exact ⟨rfl, .text spelled⟩
  | binary raw =>
    cases after
    exact ⟨rfl, .binary spelled⟩
  | array | map | ext => cases after

theorem itemOfSkip {room : Nat} {bytes rest : Bytes} (skipped : skip room bytes = .ok ((), rest)) :
    ∃ b, bytes = b ++ rest ∧ Item room b := by
  induction room generalizing bytes rest with
  | zero =>
    rw [skipHeads] at skipped
    obtain ⟨head, middle, read, after⟩ := bindParts skipped
    obtain ⟨b, rfl, spelled⟩ := spelledOfHead read
    obtain ⟨rfl, item⟩ := itemOfShut spelled 0 after
    exact ⟨b, rfl, item⟩
  | succ room ih =>
    rw [skipHeads] at skipped
    obtain ⟨head, middle, read, after⟩ := bindParts skipped
    obtain ⟨b, rfl, spelled⟩ := spelledOfHead read
    cases head with
    | scalar | text | binary =>
      obtain ⟨rfl, item⟩ := itemOfShut spelled (room + 1) after
      exact ⟨b, rfl, item⟩
    | array n =>
      obtain ⟨items, rfl, rfl, each⟩ := itemsOfTimes (fun _ _ => ih) n after
      exact ⟨b ++ items.flatten, by simp, .array spelled each⟩
    | map n =>
      have pair (bytes rest : Bytes)
          (read : (do skip room; skip room : Reader Unit) bytes = .ok ((), rest)) :
          ∃ b, bytes = b ++ rest ∧ ∃ e : Bytes × Bytes, b = e.1 ++ e.2 ∧ Item room e.1 ∧
            Item room e.2 := by
        obtain ⟨_, middle, first, second⟩ := bindParts read
        obtain ⟨key, rfl, keyItem⟩ := ih first
        obtain ⟨value, rfl, valueItem⟩ := ih second
        exact ⟨key ++ value, by simp, (key, value), rfl, keyItem, valueItem⟩
      obtain ⟨items, rfl, rfl, each⟩ := itemsOfTimes pair n after
      obtain ⟨entries, same, spell, keys, values⟩ := entriesOfPairs each
      rw [spell, ← List.append_assoc]
      exact ⟨_, rfl, .map (by rwa [same]) keys values⟩
    | ext n =>
      cases middle with
      | nil => cases after
      | cons kind middle =>
        obtain ⟨_, _, first, contents⟩ := bindParts after
        cases first
        obtain ⟨raw, final, taken, made⟩ := bindParts contents
        obtain ⟨rfl, rfl⟩ := takeBytesParts taken
        cases made
        exact ⟨b ++ kind :: raw, by simp, .ext spelled⟩

theorem itemOfSkipped {room : Nat} {b : Bytes} (skipped : skip room b = .ok ((), [])) :
    Item room b := by
  obtain ⟨c, rfl, item⟩ := itemOfSkip skipped
  rwa [List.append_nil]

theorem itemIffSkips {room : Nat} {b : Bytes} : Item room b ↔ ReadsAs (skip room) b () := by
  refine ⟨Item.skips, fun skips => itemOfSkipped ?_⟩
  rw [← skips [], List.append_nil]

end EntityFoundry.Wire
