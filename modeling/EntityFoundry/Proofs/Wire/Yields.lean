import EntityFoundry.Proofs.Wire.Delimited
import Mathlib.Data.List.Induction
/-! What readers give back, whatever the bytes. A property of what is read may speak of the number
of bytes it took. Lengths are below 2^32 however they are spelled; a sequence is made of what its
elements give, and a record of what its slots give. -/
namespace EntityFoundry

theorem Bytes.toNatBound (bytes : Bytes) : bytes.toNat < span bytes.length := by
  induction bytes using List.reverseRecOn with
  | nil => decide
  | append_singleton bytes b ih =>
    have digit := b.toNat_lt
    rw [toNatSnoc, List.length_append, List.length_singleton, spanSucc]
    omega

namespace Wire

def Yields {α : Type} (x : Reader α) (p : Nat → α → Prop) : Prop :=
  ∀ bytes a rest, x bytes = .ok (a, rest) → ∃ n, bytes.length = n + rest.length ∧ p n a

namespace Yields
variable {α β : Type} {x : Reader α} {p q : Nat → α → Prop}

theorem mono (yields : Yields x p) (weaker : ∀ n a, p n a → q n a) : Yields x q := by
  intro bytes a rest read
  obtain ⟨n, length, holds⟩ := yields bytes a rest read
  exact ⟨n, length, weaker n a holds⟩

theorem pure {a : α} (holds : p 0 a) : Yields (Pure.pure a) p := by
  intro bytes b rest read
  cases read
  exact ⟨0, (Nat.zero_add _).symm, holds⟩

theorem throw (fault : Fault) : Yields (MonadExcept.throw fault : Reader α) p :=
  fun _ _ _ read => nomatch read

theorem lift {result : Except Fault α} (holds : ∀ a, result = .ok a → p 0 a) :
    Yields (liftM result) p := by
  intro bytes a rest read
  cases result with
  | error fault => cases read
  | ok b =>
    cases read
    exact ⟨0, (Nat.zero_add _).symm, holds _ rfl⟩

theorem bind {f : α → Reader β} {r : Nat → β → Prop} (first : Yields x p)
    (next : ∀ n a, p n a → Yields (f a) fun m b => r (n + m) b) : Yields (x >>= f) r := by
  intro bytes b rest read
  obtain ⟨a, middle, start, last⟩ := bindParts read
  obtain ⟨n, front, holds⟩ := first bytes a middle start
  obtain ⟨m, back, final⟩ := next n a holds middle b rest last
  exact ⟨n + m, by omega, final⟩

theorem liftBind {result : Except Fault α} {f : α → Reader β} {r : Nat → β → Prop}
    (next : ∀ a, result = .ok a → Yields (f a) r) : Yields (liftM result >>= f) r := by
  have value : Yields (liftM result) fun n a => n = 0 ∧ result = .ok a :=
    .lift fun _ same => ⟨rfl, same⟩
  refine value.bind fun n a found => ?_
  rw [found.1]
  simp only [Nat.zero_add]
  exact next a found.2

theorem map {f : α → β} {r : Nat → β → Prop} (yields : Yields x p)
    (holds : ∀ n a, p n a → r n (f a)) : Yields (f <$> x) r := by
  intro bytes b rest read
  obtain ⟨a, start, rfl⟩ := mapParts read
  obtain ⟨n, length, here⟩ := yields bytes a rest start
  exact ⟨n, length, holds n a here⟩

end Yields

/-! Heads. -/

theorem byteYields (fault : Fault) : Yields (takeByte fault) fun n _ => n = 1 := by
  intro bytes b rest read
  cases bytes with
  | nil => cases read
  | cons c bytes =>
    cases read
    exact ⟨1, Nat.add_comm _ _, rfl⟩

theorem bytesYield (fault : Fault) (k : Nat) :
    Yields (takeBytes fault k) fun n raw => n = k ∧ raw.length = k := by
  intro bytes raw rest read
  simp only [takeBytes] at read
  split at read
  next full =>
    cases read
    refine ⟨k, ?_, rfl, full⟩
    rw [List.length_take] at full
    rw [List.length_drop]
    omega
  next => cases read

theorem natYields (width : Nat) : Yields (readNat width) fun _ v => v < Bytes.span width := by
  refine (bytesYield .shortNumber width).bind fun n raw taken => .pure ?_
  have bound := raw.toNatBound
  rw [taken.2] at bound
  exact bound

def Marker.Narrow : Marker → Prop
  | .fixStr n | .fixArray n | .fixMap n => n < UInt32.size
  | .str w | .bin w | .array w | .map w => w ≤ 4
  | _ => True

theorem Marker.ofByteNarrow (b : UInt8) : (ofByte b).Narrow := by
  have small := b.toNat_lt
  have word : UInt32.size = 4294967296 := rfl
  simp only [ofByte]
  split
  · trivial
  · split
    · simp only [Narrow]
      omega
    · split
      · simp only [Narrow]
        omega
      · split
        · simp only [Narrow]
          omega
        · unfold ofHigh
          split <;> simp [Narrow]

theorem lengthYields {width : Nat} (narrow : width ≤ 4) :
    Yields (readNat width) fun _ k => k < UInt32.size :=
  (natYields width).mono fun _ _ small =>
    Nat.lt_of_lt_of_le small (Nat.pow_le_pow_right (by decide : 0 < 256) narrow)

def Head.Fits (n : Nat) : Head → Prop
  | .text raw | .binary raw => raw.length < UInt32.size ∧ raw.length < n
  | .array k | .map k => k < UInt32.size ∧ 0 < n
  | .scalar _ | .ext _ => 0 < n

theorem Head.Fits.mono {head : Head} {m n : Nat} (fits : head.Fits m) (more : m ≤ n) :
    head.Fits n := by
  cases head with
  | text | binary | array | map => exact ⟨fits.1, Nat.lt_of_lt_of_le fits.2 more⟩
  | scalar | ext => exact Nat.lt_of_lt_of_le fits more

theorem textYields {k : Nat} (small : k < UInt32.size) :
    Yields (readText k) fun n head => head.Fits (1 + n) := by
  refine (bytesYield .shortContents k).bind fun n raw taken => .pure ⟨?_, ?_⟩ <;> omega

theorem binaryYields {k : Nat} (small : k < UInt32.size) :
    Yields (readBinary k) fun n head => head.Fits (1 + n) := by
  refine (bytesYield .shortContents k).bind fun n raw taken => .pure ⟨?_, ?_⟩ <;> omega

theorem scalarYields {m : Marker} {scalar : Reader Scalar} (starts : readScalar? m = some scalar) :
    Yields scalar fun _ _ => True := by
  cases m with
  | null | bool | fixPos | fixNeg =>
    cases starts
    exact .pure trivial
  | unsigned w | signed w | float w =>
    cases starts
    exact (natYields w).bind fun _ _ _ => .pure trivial
  | _ => cases starts

theorem headAfterYields {m : Marker} (narrow : m.Narrow) :
    Yields (readHeadAfter m) fun n head => head.Fits (1 + n) := by
  unfold readHeadAfter
  split
  next scalar starts =>
    exact (scalarYields starts).bind fun n s _ => .pure (by simp only [Head.Fits]; omega)
  next =>
    cases m with
    | fixStr k => exact textYields narrow
    | str w =>
      refine (lengthYields narrow).bind fun n k small => ?_
      exact (textYields small).mono fun m head fits => fits.mono (by omega)
    | bin w =>
      refine (lengthYields narrow).bind fun n k small => ?_
      exact (binaryYields small).mono fun m head fits => fits.mono (by omega)
    | fixArray k | fixMap k => exact .pure ⟨narrow, Nat.succ_pos 0⟩
    | array w | map w =>
      exact (lengthYields narrow).bind fun n k small => .pure ⟨small, by omega⟩
    | fixExt k => exact .pure (Nat.succ_pos 0)
    | ext w => exact (natYields w).bind fun n k _ => .pure (by simp only [Head.Fits]; omega)
    | _ => exact .throw _

theorem markerYields : Yields readMarker fun n m => n = 1 ∧ m.Narrow :=
  (byteYields .noMarker).bind fun _ b one => .pure ⟨one, Marker.ofByteNarrow b⟩

theorem headYields : Yields readHead fun n head => head.Fits n := by
  refine markerYields.bind fun n m start => ?_
  exact (headAfterYields start.2).mono fun k head fits => start.1 ▸ fits

/-! Items that are passed over. -/

theorem timesYields {item : Reader Unit} (yields : Yields item fun _ _ => True) (n : Nat) :
    Yields (times n item) fun _ _ => True := by
  induction n with
  | zero => exact .pure trivial
  | succ n ih => exact yields.bind fun _ _ _ => ih

theorem skipYields (room : Nat) : Yields (skip room) fun _ _ => True := by
  induction room with
  | zero =>
    refine headYields.bind fun n head _ => ?_
    cases head with
    | array | map | ext => exact .throw _
    | scalar | text | binary => exact .pure trivial
  | succ room ih =>
    refine headYields.bind fun n head _ => ?_
    cases head with
    | array k => exact timesYields ih k
    | map k => exact timesYields (ih.bind fun _ _ _ => ih) k
    | ext k =>
      exact (byteYields _).bind fun _ _ _ => (bytesYield _ k).bind fun _ _ _ => .pure trivial
    | scalar | text | binary => exact .pure trivial

theorem keyYields (room : Nat) : Yields (readKey room) fun _ _ => True := by
  refine headYields.bind fun n head _ => ?_
  cases head with
  | text | binary => exact .pure trivial
  | scalar s =>
    cases s with
    | int signed i =>
      cases signed with
      | false => exact .pure trivial
      | true => exact .throw _
    | nil | bool | single | double => exact .throw _
  | array | map | ext => exact .throw _

/-! Targets. -/

structure Target.Gives {α : Type} (t : Target α) (p : Nat → α → Prop) : Prop where
  read : Yields t.read p
  byte : ∀ b a, t.ofByte b = .ok a → p 1 a

def weightOf {α : Type} (weight : α → Nat) : List α → Nat
  | [] => 0
  | x :: xs => weight x + weightOf weight xs

theorem weightOfOnes {α : Type} (xs : List α) : weightOf (fun _ => 1) xs = xs.length := by
  induction xs with
  | nil => rfl
  | cons x xs ih => rw [weightOf, ih, List.length_cons, Nat.add_comm]

structure Within {α : Type} (q : α → Prop) (weight : α → Nat) (n : Nat) (xs : List α) : Prop where
  each : ∀ x ∈ xs, q x
  total : weightOf weight xs ≤ n

namespace Within
variable {α : Type} {q : α → Prop} {weight : α → Nat} {m n : Nat}

theorem nil : Within q weight n [] := ⟨by simp, Nat.zero_le n⟩

theorem cons {x : α} {xs : List α} (first : q x ∧ weight x ≤ m) (rest : Within q weight n xs) :
    Within q weight (m + n) (x :: xs) :=
  ⟨List.forall_mem_cons.mpr ⟨first.1, rest.each⟩, Nat.add_le_add first.2 rest.total⟩

theorem mono {xs : List α} (inside : Within q weight m xs) (more : m ≤ n) :
    Within q weight n xs := ⟨inside.each, Nat.le_trans inside.total more⟩

end Within

section Sequences
variable {α : Type} {q : α → Prop} {weight : α → Nat}

theorem manyYield {item : Reader α} (yields : Yields item fun n x => q x ∧ weight x ≤ n)
    (k : Nat) (seen : List α) :
    Yields (readMany item k seen) fun n xs =>
      ∃ ys, xs = seen.reverse ++ ys ∧ ys.length = k ∧ Within q weight n ys := by
  induction k generalizing seen with
  | zero => exact .pure ⟨[], (List.append_nil _).symm, rfl, .nil⟩
  | succ k ih =>
    refine yields.bind fun n x first => (ih (x :: seen)).mono fun m xs rest => ?_
    obtain ⟨ys, rfl, length, inside⟩ := rest
    exact ⟨x :: ys, by simp, by simp [length], .cons first inside⟩

theorem itemsYield {item : Reader α} (yields : Yields item fun n x => q x ∧ weight x ≤ n)
    (k : Nat) :
    Yields (readMany item k []) fun n xs => xs.length = k ∧ Within q weight n xs :=
  (manyYield yields k []).mono fun _ _ found => by
    obtain ⟨ys, rfl, length, inside⟩ := found
    exact ⟨length, inside⟩

theorem bytesWithin {item : UInt8 → Except Fault α}
    (byte : ∀ b x, item b = .ok x → q x ∧ weight x ≤ 1) {raw : Bytes} {xs : List α}
    (read : raw.mapM item = .ok xs) :
    xs.length = raw.length ∧ Within q weight raw.length xs := by
  induction raw generalizing xs with
  | nil =>
    cases read
    exact ⟨rfl, .nil⟩
  | cons b raw ih =>
    obtain ⟨x, ys, first, rest, rfl⟩ := listParts read
    obtain ⟨length, inside⟩ := ih rest
    refine ⟨by simp [length], ?_⟩
    rw [List.length_cons, Nat.add_comm]
    exact .cons (byte b x first) inside

end Sequences

namespace Target
variable {α : Type} {t : Target α} {p : Nat → α → Prop}

theorem scalarGives (expected : String) (accept : Scalar → Except Fault α) :
    (scalar expected accept).Gives fun n _ => 0 < n := by
  refine ⟨?_, fun _ _ _ => Nat.succ_pos 0⟩
  refine markerYields.bind fun n m start => ?_
  split
  next => exact .throw _
  next rest starts =>
    refine (scalarYields starts).bind fun k s _ => ?_
    split
    next => exact .pure (by omega)
    next => exact .throw _

theorem optionalGives (inner : t.Gives p) :
    (optional t).Gives fun n found => ∀ a, found = some a → p n a := by
  refine ⟨fun bytes found rest read => ?_, fun _ _ refused => nomatch refused⟩
  change (if bytes.head? = some 0xc0 then .ok (none, bytes.tail) else (some <$> t.read) bytes) = _
    at read
  split at read
  next nil =>
    cases read
    cases bytes with
    | nil => cases nil
    | cons b bytes => exact ⟨1, Nat.add_comm _ _, nofun⟩
  next =>
    have some := inner.read.map (f := some) (r := fun n found => ∀ a, found = some a → p n a)
      fun n a holds b same => Option.some.inj same ▸ holds
    exact some bytes found rest read

theorem listGives {q : α → Prop} {weight : α → Nat}
    (item : t.Gives fun n x => q x ∧ weight x ≤ n) (room : Nat) :
    (list room t).Gives fun n xs => xs.length < UInt32.size ∧ Within q weight n xs := by
  refine ⟨?_, fun _ _ refused => nomatch refused⟩
  refine headYields.bind fun n head fits => ?_
  cases head with
  | array k =>
    change Yields (if room = 0 then MonadExcept.throw .depthLimit else readMany t.read k []) _
    split
    next => exact .throw _
    next =>
      refine (itemsYield item.read k).mono fun m xs found => ?_
      exact ⟨found.1 ▸ fits.1, found.2.mono (Nat.le_add_left m n)⟩
  | binary raw =>
    refine .lift fun xs read => ?_
    obtain ⟨length, inside⟩ := bytesWithin item.byte read
    exact ⟨length ▸ fits.1, inside.mono (Nat.le_of_lt fits.2)⟩
  | scalar | text | map | ext => exact .throw _

end Target

/-! Records. -/

structure Slot.Keeps {σ : Type} (slot : Slot σ) (kept : Nat → σ → Prop) : Prop where
  read : ∀ n s, kept n s → Yields slot.read fun m put => kept (n + m) (put s)
  byte : ∀ n s b put, kept n s → slot.ofByte b = .ok put → kept (n + 1) (put s)

theorem Slot.ofTargetKeeps {σ α : Type} {kept : Nat → σ → Prop} {t : Target α}
    {p : Nat → α → Prop} {put : α → σ → σ} (gives : t.Gives p) (name : String)
    (get : σ → Option α) (keeps : ∀ n m s a, kept n s → p m a → kept (n + m) (put a s)) :
    (ofTarget name t get put).Keeps kept := by
  refine ⟨fun n s here => gives.read.map fun m a holds => keeps n m s a here holds,
    fun n s b change here read => ?_⟩
  change put <$> t.ofByte b = .ok change at read
  cases value : t.ofByte b with
  | error fault =>
    rw [value] at read
    cases read
  | ok a =>
    rw [value] at read
    cases read
    exact keeps n 1 s a here (gives.byte b a value)

section Records
variable {σ τ : Type} {kept : Nat → σ → Prop} {slots : List (Slot σ)}
  (more : ∀ m n s, m ≤ n → kept m s → kept n s) (keeps : ∀ slot ∈ slots, slot.Keeps kept)

include more keeps

theorem entriesYield (room k : Nat) {n : Nat} {s : σ} (start : kept n s) :
    Yields (Slot.readEntries room slots k s) fun m s => kept (n + m) s := by
  induction k generalizing n s with
  | zero => exact .pure start
  | succ k ih =>
    refine (keyYields room).bind fun m key _ => ?_
    have past : kept (n + m) s := more n (n + m) s (Nat.le_add_right n m) start
    cases found : Slot.find slots key with
    | none =>
      refine (skipYields room).bind fun l _ _ => ?_
      simp only [← Nat.add_assoc]
      exact ih (more (n + m) (n + m + l) s (Nat.le_add_right _ l) past)
    | some slot =>
      simp only
      split
      next => exact .throw _
      next =>
        refine ((keeps slot (Slot.findMem found)).read _ s past).bind fun l put here => ?_
        simp only [← Nat.add_assoc]
        exact ih here

omit more in
theorem elementsYield (k : Nat) {n : Nat} {s : σ} (start : kept n s) :
    Yields (Slot.readElements slots k s) fun m s => kept (n + m) s := by
  induction slots generalizing k n s with
  | nil => exact .pure start
  | cons slot slots ih =>
    cases k with
    | zero => exact .pure start
    | succ k =>
      refine ((keeps slot (by simp)).read n s start).bind fun m put here => ?_
      simp only [← Nat.add_assoc]
      exact ih (fun slot member => keeps slot (by simp [member])) k here

omit more in
theorem bytesFill {raw : Bytes} {n : Nat} {s u : σ} (start : kept n s)
    (filled : Slot.fillBytes slots raw s = .ok u) : ∃ m, m ≤ raw.length ∧ kept (n + m) u := by
  induction slots generalizing raw n s with
  | nil =>
    cases filled
    exact ⟨0, Nat.zero_le _, start⟩
  | cons slot slots ih =>
    cases raw with
    | nil =>
      cases filled
      exact ⟨0, Nat.zero_le _, start⟩
    | cons b raw =>
      rw [Slot.fillBytes] at filled
      cases value : slot.ofByte b with
      | error fault =>
        rw [value] at filled
        cases filled
      | ok put =>
        rw [value] at filled
        have here := (keeps slot (by simp)).byte n s b put start value
        obtain ⟨m, few, final⟩ := ih (fun slot member => keeps slot (by simp [member])) here filled
        rw [Nat.add_assoc] at final
        exact ⟨1 + m, by simp; omega, final⟩

omit keeps in
theorem Shape.targetGives {shape : Shape σ τ} {p : Nat → τ → Prop}
    (keeps : ∀ slot ∈ shape.slots, slot.Keeps kept) (start : kept 1 shape.start)
    (finish : ∀ absent n s x, kept n s → shape.finish absent s = .ok x → p n x) (room : Nat) :
    (shape.target room).Gives p := by
  refine ⟨?_, fun _ _ refused => nomatch refused⟩
  refine headYields.bind fun n head fits => ?_
  have here (positive : 0 < n) : kept n shape.start := more 1 n _ positive start
  cases head with
  | array k =>
    change Yields (if room = 0 then MonadExcept.throw .depthLimit else _) _
    split
    next => exact .throw _
    next =>
      refine (elementsYield keeps k (here fits.2)).bind fun m s held => ?_
      refine .liftBind fun x complete => ?_
      split
      next => exact .throw _
      next => exact .pure (finish _ _ s x held complete)
  | map k =>
    change Yields (if room = 0 then MonadExcept.throw .depthLimit else _) _
    split
    next => exact .throw _
    next =>
      refine (entriesYield more keeps (room - 1) k (here fits.2)).bind fun m s held => ?_
      exact .lift fun x complete => finish _ _ s x held complete
  | binary raw =>
    refine .liftBind fun s filled => .lift fun x complete => finish _ _ s x ?_ complete
    obtain ⟨m, few, held⟩ := bytesFill keeps start filled
    have contents := fits.2
    exact more _ _ s (by omega) held
  | scalar | text | ext => exact .throw _

end Records

end Wire
end EntityFoundry
