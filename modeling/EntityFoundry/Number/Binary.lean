/-! Binary floating-point numbers as bit patterns. A pattern reads as a sign and `m · 2 ^ e`, an
infinity or no number; `nearest` goes the other way and takes the even neighbour of a tie. All
arithmetic is exact in `Nat` and `Int`, rounded once. -/
namespace EntityFoundry

structure Format where
  fraction : Nat
  exponent : Nat
  deriving DecidableEq, Repr

namespace Format

def single : Format := ⟨23, 8⟩
def double : Format := ⟨52, 11⟩

def least (f : Format) : Int := 2 - (1 <<< (f.exponent - 1) : Nat) - f.fraction

def infinity (f : Format) : Nat := ((1 <<< f.exponent) - 1) <<< f.fraction

def sign (f : Format) : Nat := 1 <<< (f.fraction + f.exponent)

def notNumber (f : Format) : Nat := f.infinity + (1 <<< (f.fraction - 1))

inductive Reading
  | notNumber
  | infinite (negative : Bool)
  | finite (negative : Bool) (m : Nat) (e : Int)
  deriving DecidableEq, Repr

def reading (f : Format) (bits : Nat) : Reading :=
  let negative := decide (f.sign ≤ bits)
  let magnitude := bits % f.sign
  let power := magnitude >>> f.fraction
  let m := magnitude % (1 <<< f.fraction)
  if f.infinity < magnitude then .notNumber
  else if magnitude = f.infinity then .infinite negative
  else if power = 0 then .finite negative m f.least
  else .finite negative (m + (1 <<< f.fraction)) (f.least + (power - 1 : Nat))

def shiftNearest (m shift : Nat) : Nat :=
  let q := m >>> shift
  let unit := 1 <<< shift
  let twice := 2 * (m % unit)
  if twice < unit then q
  else if unit < twice then q + 1
  else q + q % 2

def nearest (f : Format) (m : Nat) (e : Int) : Nat :=
  if m = 0 then 0
  else
    let power := max (e + Nat.log2 m - f.fraction) f.least
    let kept := if power ≤ e then m <<< (e - power).toNat else shiftNearest m (power - e).toNat
    min f.infinity (((power - f.least).toNat <<< f.fraction) + kept)

def signed (f : Format) (negative : Bool) (magnitude : Nat) : Nat :=
  if negative then f.sign + magnitude else magnitude

def ofReading (f : Format) : Reading → Nat
  | .notNumber => f.notNumber
  | .infinite negative => f.signed negative f.infinity
  | .finite negative m e => f.signed negative (f.nearest m e)

def ofInt (f : Format) (i : Int) : Nat := f.signed (i < 0) (f.nearest i.natAbs 0)

end Format

structure Single where
  bits : UInt32
  deriving DecidableEq, Repr

structure Double where
  bits : UInt64
  deriving DecidableEq, Repr

def Double.reading (x : Double) : Format.Reading := Format.double.reading x.bits.toNat

namespace Single

def zero : Single := ⟨0⟩

def reading (x : Single) : Format.Reading := Format.single.reading x.bits.toNat

def isNaN (x : Single) : Bool := decide (x.reading = .notNumber)

def ofInt (i : Int) : Single := ⟨UInt32.ofNat (Format.single.ofInt i)⟩

def ofDouble (x : Double) : Single := ⟨UInt32.ofNat (Format.single.ofReading x.reading)⟩

def toDouble (x : Single) : Double := ⟨UInt64.ofNat (Format.double.ofReading x.reading)⟩

/-- At most zero. No comparison holds of a pattern that is no number. -/
def isNonPositive (x : Single) : Bool :=
  match x.reading with
  | .notNumber => false
  | .infinite negative => negative
  | .finite negative m _ => negative || m = 0

def sub (x y : Single) : Single :=
  let f := Format.single
  let bits := match x.reading, y.reading with
    | .notNumber, _ => f.notNumber
    | _, .notNumber => f.notNumber
    | .infinite a, .infinite b => if a = b then f.notNumber else f.signed a f.infinity
    | .infinite a, .finite .. => f.signed a f.infinity
    | .finite .., .infinite b => f.signed (!b) f.infinity
    | .finite a m e, .finite b n g =>
      let low := min e g
      let left := (if a then -1 else 1 : Int) * (m <<< (e - low).toNat : Nat)
      let right := (if b then -1 else 1 : Int) * (n <<< (g - low).toNat : Nat)
      let d := left - right
      -- An exact zero is negative only as `-0 - 0`.
      if d = 0 then f.signed (a && !b && m = 0) 0
      else f.signed (d < 0) (f.nearest d.natAbs low)
  ⟨UInt32.ofNat bits⟩

def atLeastZero (x : Single) : Single := if x.isNaN || x.isNonPositive then zero else x

end Single
end EntityFoundry
