/-! Byte strings and the big-endian numbers they spell. Main statement: the bytes of a number read
back as the number modulo the span of their width. -/
namespace EntityFoundry

abbrev Bytes := List UInt8

namespace Bytes

def span (width : Nat) : Nat := Nat.pow 256 width

def toNat (bytes : Bytes) : Nat := bytes.foldl (fun n b => n * 256 + b.toNat) 0

def ofNat : (width : Nat) → (n : Nat) → Bytes
  | 0, _ => []
  | width + 1, n => ofNat width (n / 256) ++ [UInt8.ofNat n]

theorem spanSucc (width : Nat) : span (width + 1) = 256 * span width := Nat.mul_comm (span width) 256

theorem ofNatLength (width n : Nat) : (ofNat width n).length = width := by
  induction width generalizing n with
  | zero => rfl
  | succ width ih => simp [ofNat, ih]

theorem toNatSnoc (bytes : Bytes) (b : UInt8) : toNat (bytes ++ [b]) = toNat bytes * 256 + b.toNat := by
  simp [toNat]

theorem toNatOfNat (width n : Nat) : toNat (ofNat width n) = n % span width := by
  induction width generalizing n with
  | zero => simp [ofNat, toNat, span, Nat.mod_one]
  | succ width ih =>
    rw [ofNat, toNatSnoc, ih, spanSucc, Nat.mod_mul, UInt8.toNat_ofNat']
    omega

end Bytes
end EntityFoundry
