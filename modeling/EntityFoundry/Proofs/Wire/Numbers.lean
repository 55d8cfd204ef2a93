import EntityFoundry.Proofs.Wire.Entries
/-! Numbers and sequences against the forms of the wire. A target for integers takes every form of an
integer in its range, of whatever width and signed or not, and takes nothing else; a sequence is
taken element by element, up to the length that its head spells. -/
namespace EntityFoundry.Wire

def SpellsInteger (b : Bytes) (i : Int) : Prop := ∃ signed, Spells b (.scalar (.int signed i))

theorem SpellsInteger.unique {b : Bytes} {i j : Int} (one : SpellsInteger b i)
    (other : SpellsInteger b j) : i = j := by
  obtain ⟨_, one⟩ := one
  obtain ⟨_, other⟩ := other
  cases (one.reads []).symm.trans (other.reads [])
  rfl

theorem readScalarOfHead {m : Marker} {bytes rest : Bytes} {s : Scalar}
    (read : readHeadAfter m bytes = .ok (.scalar s, rest)) :
    ∃ scalar, readScalar? m = some scalar ∧ scalar bytes = .ok (s, rest) := by
  unfold readHeadAfter at read
  cases starts : readScalar? m with
  | some scalar =>
    rw [starts] at read
    obtain ⟨_, _, value, made⟩ := bindParts read
    cases made
    exact ⟨scalar, rfl, value⟩
  | none =>
    rw [starts] at read
    cases m with
    | fixStr n =>
      obtain ⟨_, -, -, same⟩ := readTextParts read
      cases same
    | str w =>
      obtain ⟨_, _, _, contents⟩ := bindParts read
      obtain ⟨_, -, -, same⟩ := readTextParts contents
      cases same
    | bin w =>
      obtain ⟨_, _, _, contents⟩ := bindParts read
      obtain ⟨_, -, -, same⟩ := readBinaryParts contents
      cases same
    | array w | map w | ext w =>
      obtain ⟨_, _, _, made⟩ := bindParts read
      cases made
    | _ => cases read

section Scalars
variable {α : Type} {expected : String} {accept : Scalar → Except Fault α}

theorem scalarRead {bytes rest : Bytes} {x : α} :
    (Target.scalar expected accept).read bytes = .ok (x, rest) ↔
      ∃ s, readHead bytes = .ok (.scalar s, rest) ∧ accept s = .ok x := by
  constructor
  · intro read
    obtain ⟨m, middle, marker, last⟩ := bindParts read
    have headed : readHead bytes = readHeadAfter m middle := bindOk marker
    cases starts : readScalar? m with
    | none =>
      rw [starts] at last
      cases last
    | some scalar =>
      rw [starts] at last
      obtain ⟨s, after, value, accepted⟩ := bindParts last
      cases verdict : accept s with
      | error fault =>
        rw [verdict] at accepted
        cases accepted
      | ok y =>
        rw [verdict] at accepted
        cases accepted
        exact ⟨s, headed.trans (readHeadScalar starts value), verdict⟩
  · rintro ⟨s, head, accepted⟩
    obtain ⟨m, middle, marker, after⟩ := bindParts head
    obtain ⟨scalar, starts, value⟩ := readScalarOfHead after
    refine (bindOk marker).trans ?_
    rw [starts]
    refine (bindOk value).trans ?_
    rw [accepted]
    rfl

theorem scalarReads {b : Bytes} {x : α} :
    ReadsAs (Target.scalar expected accept).read b x ↔
      ∃ s, Spells b (.scalar s) ∧ accept s = .ok x := by
  constructor
  · intro reads
    obtain ⟨s, head, accepted⟩ := scalarRead.mp reads.read
    obtain ⟨b, rfl, spelled⟩ := spelledOfHead head
    rw [List.append_nil]
    exact ⟨s, spelled, accepted⟩
  · rintro ⟨s, spelled, accepted⟩ rest
    exact scalarRead.mpr ⟨s, spelled.reads rest, accepted⟩

theorem scalarRefused {b : Bytes} {s : Scalar} {fault : Fault} (spelled : Spells b (.scalar s))
    (refused : accept s = .error fault) (rest : Bytes) :
    (Target.scalar expected accept).read (b ++ rest) = .error fault := by
  obtain ⟨m, middle, marker, after⟩ := bindParts (spelled.reads rest)
  obtain ⟨scalar, starts, value⟩ := readScalarOfHead after
  refine (bindOk marker).trans ?_
  rw [starts]
  refine (bindOk value).trans ?_
  rw [refused]
  rfl

end Scalars

theorem unsignedReads {bound : Nat} {expected : String} {b : Bytes} {n : Nat} :
    ReadsAs (Target.unsigned bound expected).read b n ↔ n < bound ∧ SpellsInteger b n := by
  refine scalarReads.trans ⟨?_, ?_⟩
  · rintro ⟨s, spelled, accepted⟩
    cases s with
    | int signed i =>
      simp only at accepted
      split at accepted
      next inside =>
        cases accepted
        obtain ⟨n, rfl⟩ := Int.eq_ofNat_of_zero_le inside.1
        exact ⟨Int.ofNat_lt.mp inside.2, signed, spelled⟩
      next => cases accepted
    | nil | bool | single | double => cases accepted
  · rintro ⟨below, signed, spelled⟩
    refine ⟨_, spelled, ?_⟩
    have inside : (0 : Int) ≤ n ∧ (n : Int) < bound := ⟨Int.natCast_nonneg n, Int.ofNat_lt.mpr below⟩
    simp only [inside, and_self, if_true, Int.toNat_natCast]

theorem unsignedDecodes {bound n : Nat} {expected : String} {bytes : Bytes} :
    (Target.unsigned bound expected).decode bytes = .ok n ↔
      n < bound ∧ ∃ b rest, bytes = b ++ rest ∧ SpellsInteger b n := by
  constructor
  · intro decoded
    cases read : (Target.unsigned bound expected).read bytes with
    | error fault =>
      rw [Target.decode, read] at decoded
      cases decoded
    | ok found =>
      rw [Target.decode, read] at decoded
      cases decoded
      obtain ⟨b, whole, reads⟩ := Target.scalarDelimited _ _ bytes found.1 found.2 read
      obtain ⟨below, spelled⟩ := unsignedReads.mp reads
      exact ⟨below, b, found.2, whole, spelled⟩
  · rintro ⟨below, b, rest, rfl, spelled⟩
    rw [Target.decode, unsignedReads.mpr ⟨below, spelled⟩ rest]
    rfl

theorem unsignedNegative {bound : Nat} {expected : String} {b : Bytes} {i : Int} (negative : i < 0)
    (spelled : SpellsInteger b i) (rest : Bytes) :
    (Target.unsigned bound expected).decode (b ++ rest) =
      .error (.wrongValue (.integer i) expected) := by
  obtain ⟨signed, spelled⟩ := spelled
  have refused : (Target.unsigned bound expected).read (b ++ rest) =
      .error (.wrongValue (.integer i) expected) :=
    scalarRefused spelled (if_neg fun inside => by omega) rest
  rw [Target.decode, refused]
  rfl

def SpellsByte (b : Bytes) (byte : UInt8) : Prop := SpellsInteger b byte.toNat

theorem byteReads {b : Bytes} {n : Nat} :
    ReadsAs Target.u8.read b n ↔ n < 0x100 ∧ SpellsByte b (UInt8.ofNat n) := by
  refine unsignedReads.trans (and_congr_right fun below => ?_)
  unfold SpellsByte
  rw [UInt8.toNat_ofNat', Nat.mod_eq_of_lt below]

theorem manyItems {α : Type} {item : Reader α} (delimited : Delimited item) (n : Nat)
    {seen xs : List α} {bytes rest : Bytes} (read : readMany item n seen bytes = .ok (xs, rest)) :
    ∃ items ys, items.length = n ∧ bytes = items.flatten ++ rest ∧ xs = seen.reverse ++ ys ∧
      List.Forall₂ (ReadsAs item) items ys := by
  induction n generalizing seen bytes with
  | zero =>
    cases read
    exact ⟨[], [], rfl, rfl, (List.append_nil _).symm, .nil⟩
  | succ n ih =>
    obtain ⟨x, middle, first, others⟩ := bindParts read
    obtain ⟨used, rfl, reads⟩ := delimited bytes x middle first
    obtain ⟨items, ys, rfl, rfl, rfl, each⟩ := ih others
    exact ⟨used :: items, x :: ys, rfl, by simp, by simp, .cons reads each⟩

end EntityFoundry.Wire
