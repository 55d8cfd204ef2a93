import EntityFoundry.Text.Utf8
/-! Text reads back from its UTF-8 form. Each character reads back whatever follows it: its first
byte tells its length, and neither a longer form than needed nor a surrogate is ever written. -/
namespace EntityFoundry.Text.Utf8

section Byte
variable {n : Nat} (byte : n < 0x100)
include byte

theorem toNatByte : (UInt8.ofNat n).toNat = n := by rw [UInt8.toNat_ofNat', Nat.mod_eq_of_lt byte]

theorem byteBelow (bound : UInt8) : UInt8.ofNat n < bound ↔ n < bound.toNat := by
  rw [UInt8.lt_iff_toNat_lt, toNatByte byte]

theorem byteFrom (bound : UInt8) : bound ≤ UInt8.ofNat n ↔ bound.toNat ≤ n := by
  rw [UInt8.le_iff_toNat_le, toNatByte byte]

theorem byteUpTo (bound : UInt8) : UInt8.ofNat n ≤ bound ↔ n ≤ bound.toNat := by
  rw [UInt8.le_iff_toNat_le, toNatByte byte]

theorem byteIs (b : UInt8) : UInt8.ofNat n = b ↔ n = b.toNat := by
  rw [← UInt8.toNat_inj, toNatByte byte]

end Byte

theorem tailWritten (n : Nat) : isTail (UInt8.ofNat (0x80 + n % 64)) = true := by
  have byte : 0x80 + n % 64 < 0x100 := by omega
  simp only [isTail, Bool.and_eq_true, decide_eq_true_eq, byteFrom byte, byteUpTo byte,
    UInt8.reduceToNat]
  omega

theorem secondOfThreeWritten {n : Nat} (least : 0x800 ≤ n) (small : n < 0x10000)
    (scalar : n < 0xd800 ∨ 0xdfff < n) :
    secondOfThree (UInt8.ofNat (0xe0 + n / 4096)) (UInt8.ofNat (0x80 + n / 64 % 64)) = true := by
  have lead : 0xe0 + n / 4096 < 0x100 := by omega
  have second : 0x80 + n / 64 % 64 < 0x100 := by omega
  unfold secondOfThree
  simp only [byteIs lead, byteFrom second, byteUpTo second, tailWritten, UInt8.reduceToNat]
  split
  · simp only [Bool.and_eq_true, decide_eq_true_eq]
    omega
  split
  · simp only [Bool.and_eq_true, decide_eq_true_eq]
    omega
  · rfl

theorem secondOfFourWritten {n : Nat} (least : 0x10000 ≤ n) (small : n < 0x110000) :
    secondOfFour (UInt8.ofNat (0xf0 + n / 262144)) (UInt8.ofNat (0x80 + n / 4096 % 64)) = true := by
  have lead : 0xf0 + n / 262144 < 0x100 := by omega
  have second : 0x80 + n / 4096 % 64 < 0x100 := by omega
  unfold secondOfFour
  simp only [byteIs lead, byteFrom second, byteUpTo second, tailWritten, UInt8.reduceToNat]
  split
  · simp only [Bool.and_eq_true, decide_eq_true_eq]
    omega
  split
  · simp only [Bool.and_eq_true, decide_eq_true_eq]
    omega
  · rfl

theorem charOfTwoWritten {n : Nat} (small : n < 0x800) :
    charOfTwo (UInt8.ofNat (0xc0 + n / 64)) (UInt8.ofNat (0x80 + n % 64)) = Char.ofNat n := by
  rw [charOfTwo, toNatByte (by omega), toNatByte (by omega)]
  exact congrArg Char.ofNat (by omega)

theorem charOfThreeWritten {n : Nat} (small : n < 0x10000) :
    charOfThree (UInt8.ofNat (0xe0 + n / 4096)) (UInt8.ofNat (0x80 + n / 64 % 64))
      (UInt8.ofNat (0x80 + n % 64)) = Char.ofNat n := by
  rw [charOfThree, toNatByte (by omega), toNatByte (by omega), toNatByte (by omega)]
  exact congrArg Char.ofNat (by omega)

theorem charOfFourWritten {n : Nat} (small : n < 0x110000) :
    charOfFour (UInt8.ofNat (0xf0 + n / 262144)) (UInt8.ofNat (0x80 + n / 4096 % 64))
      (UInt8.ofNat (0x80 + n / 64 % 64)) (UInt8.ofNat (0x80 + n % 64)) = Char.ofNat n := by
  rw [charOfFour, toNatByte (by omega), toNatByte (by omega), toNatByte (by omega),
    toNatByte (by omega)]
  exact congrArg Char.ofNat (by omega)

theorem decodeChar (c : Char) (i : Nat) (seen : List Char) (rest : Bytes) :
    decodeFrom i seen (encodeChar c ++ rest) =
      decodeFrom (i + (encodeChar c).length) (c :: seen) rest := by
  have valid : c.toNat < 0xd800 ∨ 0xdfff < c.toNat ∧ c.toNat < 0x110000 := c.valid
  have whole : Char.ofNat c.toNat = c := Char.ofNat_toNat c
  simp only [encodeChar]
  generalize c.toNat = n at valid whole
  split
  next one =>
    have lead : n < 0x100 := by omega
    rw [List.singleton_append, decodeFrom.eq_def]
    simp only [byteBelow lead, UInt8.reduceToNat]
    rw [if_pos one, toNatByte lead, whole]
    rfl
  split
  next more two =>
    have lead : 0xc0 + n / 64 < 0x100 := by omega
    simp only [List.cons_append, List.nil_append]
    rw [decodeFrom.eq_def]
    simp only [byteBelow lead, UInt8.reduceToNat]
    rw [if_neg (by omega), if_neg (by omega), if_pos (by omega), if_pos (tailWritten n),
      charOfTwoWritten two, whole]
    rfl
  split
  next more three =>
    have lead : 0xe0 + n / 4096 < 0x100 := by omega
    have second := secondOfThreeWritten (n := n) (by omega) three (by omega)
    simp only [List.cons_append, List.nil_append]
    rw [decodeFrom.eq_def]
    simp only [byteBelow lead, UInt8.reduceToNat]
    rw [if_neg (by omega), if_neg (by omega), if_neg (by omega), if_pos (by omega), if_pos second,
      if_pos (tailWritten n), charOfThreeWritten three, whole]
    rfl
  next more =>
    have small : n < 0x110000 := by omega
    have lead : 0xf0 + n / 262144 < 0x100 := by omega
    have second := secondOfFourWritten (n := n) (by omega) small
    simp only [List.cons_append, List.nil_append]
    rw [decodeFrom.eq_def]
    simp only [byteBelow lead, UInt8.reduceToNat]
    rw [if_neg (by omega), if_neg (by omega), if_neg (by omega), if_neg (by omega),
      if_pos (by omega), if_pos second, if_pos (tailWritten (n / 64)), if_pos (tailWritten n),
      charOfFourWritten small, whole]
    rfl

theorem decodeChars (cs : List Char) (i : Nat) (seen : List Char) :
    decodeFrom i seen (cs.flatMap encodeChar) = .ok (seen.reverse ++ cs) := by
  induction cs generalizing i seen with
  | nil => simp [decodeFrom]
  | cons c cs ih =>
    rw [List.flatMap_cons, decodeChar, ih, List.reverse_cons, List.append_assoc,
      List.singleton_append]

theorem decodeEncode (s : String) : decode (encode s) = .ok s := by
  rw [decode, encode, decodeChars]
  exact congrArg Except.ok String.ofList_toList

end EntityFoundry.Text.Utf8
