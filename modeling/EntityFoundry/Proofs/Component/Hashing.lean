import EntityFoundry.Component.Tag
import Mathlib.Logic.ExistsUnique
import Mathlib.Logic.Function.Basic
/-! Mixing a byte into a hash can be undone: the prime has an inverse among the numbers of 64 bits,
and the byte comes off again. So the hash goes through the same bytes from different states to
different states, and names that differ in one byte have different tags. -/
namespace EntityFoundry

structure Bytes.DifferOnce (a b : Bytes) : Prop where
  sameLength : a.length = b.length
  onePlace : ∃! i : Nat, a[i]? ≠ b[i]?

namespace Bytes.DifferOnce
variable {a b : Bytes}

theorem parts (apart : a.DifferOnce b) :
    ∃ front x y back, a = front ++ x :: back ∧ b = front ++ y :: back ∧ x ≠ y := by
  obtain ⟨same, i, differ, only⟩ := apart
  have elsewhere (j : Nat) (other : j ≠ i) : a[j]? = b[j]? :=
    Classical.byContradiction fun apart => other (only j apart)
  have within : i < a.length := by
    by_contra beyond
    exact differ (by rw [List.getElem?_eq_none (by omega), List.getElem?_eq_none (by omega)])
  have inside : i < b.length := by omega
  have front : a.take i = b.take i := by
    refine List.ext_getElem? fun j => ?_
    rw [List.getElem?_take, List.getElem?_take]
    split
    next before => exact elsewhere j (by omega)
    next => rfl
  have back : a.drop (i + 1) = b.drop (i + 1) := by
    refine List.ext_getElem? fun j => ?_
    rw [List.getElem?_drop, List.getElem?_drop]
    exact elsewhere (i + 1 + j) (by omega)
  refine ⟨a.take i, a[i], b[i], a.drop (i + 1), ?_, ?_, fun equal => differ ?_⟩
  · rw [← List.drop_eq_getElem_cons, List.take_append_drop]
  · rw [front, back, ← List.drop_eq_getElem_cons, List.take_append_drop]
  · rw [List.getElem?_eq_getElem within, List.getElem?_eq_getElem inside, equal]

theorem ofParts (front : Bytes) {x y : UInt8} (back : Bytes) (differ : x ≠ y) :
    Bytes.DifferOnce (front ++ x :: back) (front ++ y :: back) := by
  refine ⟨by simp, front.length, by simpa using differ, fun j apart => ?_⟩
  by_contra other
  refine apart ?_
  rcases Nat.lt_or_gt_of_ne other with before | after
  · rw [List.getElem?_append_left before, List.getElem?_append_left before]
  · rw [List.getElem?_append_right (by omega), List.getElem?_append_right (by omega),
      List.getElem?_cons, List.getElem?_cons, if_neg (by omega), if_neg (by omega)]

end Bytes.DifferOnce

namespace Tag

def primeInverse : UInt64 := 0xce965057aff6957b

def unmix (h : UInt64) (b : UInt8) : UInt64 := (h * primeInverse) ^^^ b.toUInt64

def rewind (bytes : Bytes) (h : UInt64) : UInt64 := bytes.foldr (fun b h => unmix h b) h

theorem mixTimesInverse (h : UInt64) (b : UInt8) :
    mix h b * primeInverse = h ^^^ b.toUInt64 := by
  have inverse : prime * primeInverse = 1 := rfl
  rw [mix, UInt64.mul_assoc, inverse, UInt64.mul_one]

theorem unmixMix (h : UInt64) (b : UInt8) : unmix (mix h b) b = h := by
  rw [unmix, mixTimesInverse, UInt64.xor_assoc, UInt64.xor_self, UInt64.xor_zero]

theorem rewindFoldl (bytes : Bytes) :
    Function.LeftInverse (rewind bytes) fun h => bytes.foldl mix h := by
  intro h
  induction bytes generalizing h with
  | nil => rfl
  | cons b bytes ih =>
    change unmix (rewind bytes (bytes.foldl mix (mix h b))) b = h
    rw [ih, unmixMix]

theorem foldlInjective (bytes : Bytes) : Function.Injective fun h => bytes.foldl mix h :=
  (rewindFoldl bytes).injective

theorem mixInjective (h : UInt64) : Function.Injective (mix h) := by
  intro b c same
  have mixed := congrArg (· * primeInverse) same
  simp only [mixTimesInverse, UInt64.xor_right_inj] at mixed
  exact UInt8.toUInt64_inj.mp mixed

theorem hashBytesApart {a b : Bytes} (apart : a.DifferOnce b) : hashBytes a ≠ hashBytes b := by
  obtain ⟨front, x, y, back, rfl, rfl, differ⟩ := apart.parts
  intro same
  -- Behind the place both loops run over `back`, so they were in one state when they entered it.
  simp only [hashBytes, List.foldl_append, List.foldl_cons] at same
  exact differ (mixInjective _ (foldlInjective back same))

theorem ofNameApart :
    (∀ suffix : Bytes, Function.Injective fun h => suffix.foldl mix h) ∧
    ∀ name other : String,
      (Text.Utf8.encode name).DifferOnce (Text.Utf8.encode other) → ofName name ≠ ofName other :=
  ⟨foldlInjective, fun _ _ apart same => hashBytesApart apart (congrArg hash same)⟩

theorem leadByteApart :
    (Text.Utf8.encode "caf\u00e9s").DifferOnce (Text.Utf8.encode "caf\u00a9s") ∧
      ofName "caf\u00e9s" ≠ ofName "caf\u00a9s" := by
  have apart : (Text.Utf8.encode "caf\u00e9s").DifferOnce (Text.Utf8.encode "caf\u00a9s") :=
    .ofParts [0x63, 0x61, 0x66] [0xa9, 0x73] (by decide : (0xc3 : UInt8) ≠ 0xc2)
  exact ⟨apart, ofNameApart.2 _ _ apart⟩

end Tag
end EntityFoundry
