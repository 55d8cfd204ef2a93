import EntityFoundry.Number.Binary
/-! Decimal text of binary numbers: the fewest digits that read back, the nearest such digits, an
exact tie upwards. `plain` never uses an exponent; `general` uses one from `10 ^ 16` on and below
`10 ^ -4`. -/
namespace EntityFoundry

structure Decimal where
  digits : Nat
  exponent : Int
  deriving DecidableEq, Repr

namespace Decimal

/-- On the grid of multiples of `10 ^ k`, the point next to `mid` among those between `low` and
`high`; the three are counted in units of `2 ^ unit`. -/
def onGrid (low mid high : Nat) (closed : Bool) (unit k : Int) : Option Nat :=
  let scale := Nat.pow 10 (-k).toNat <<< unit.toNat
  let step := Nat.pow 10 k.toNat <<< (-unit).toNat
  let inside (d : Nat) : Bool :=
    if closed then low * scale ≤ d * step && d * step ≤ high * scale
    else low * scale < d * step && d * step < high * scale
  let down := mid * scale / step
  let up := down + 1
  match inside down, inside up with
  | true, true => some (if mid * scale - down * step < up * step - mid * scale then down else up)
  | true, false => some down
  | false, true => some up
  | false, false => none

def search (low mid high : Nat) (closed : Bool) (unit : Int) : (fuel : Nat) → (k : Int) → Decimal
  | 0, k => ⟨mid, k⟩
  | fuel + 1, k =>
    match onGrid low mid high closed unit k with
    | some d => ⟨d, k⟩
    | none => search low mid high closed unit fuel (k - 1)

/-- The shortest decimal among those that read back as `m · 2 ^ e` in the format, for `m` not zero. -/
def shortest (f : Format) (m : Nat) (e : Int) : Decimal :=
  let low := if m = 1 <<< f.fraction && f.least < e then 4 * m - 1 else 4 * m - 2
  let start := (e + Nat.log2 m) * 30103 / 100000 + 2
  search low (4 * m) (4 * m + 2) (m % 2 = 0) (e - 2) 30 start

def trim : (fuel : Nat) → Decimal → Decimal
  | 0, d => d
  | fuel + 1, d =>
    if d.digits ≠ 0 && d.digits % 10 = 0 then trim fuel ⟨d.digits / 10, d.exponent + 1⟩ else d

def positional (d : Decimal) : String :=
  let digits := Nat.toDigits 10 d.digits
  if 0 ≤ d.exponent then String.ofList (digits ++ List.replicate d.exponent.toNat '0')
  else
    let places := (-d.exponent).toNat
    let padded := List.replicate (places + 1 - digits.length) '0' ++ digits
    let whole := padded.length - places
    String.ofList (padded.take whole ++ '.' :: padded.drop whole)

def magnitude (d : Decimal) : Int := d.exponent + ((Nat.toDigits 10 d.digits).length - 1 : Nat)

def scientific (d : Decimal) : String :=
  let point := match Nat.toDigits 10 d.digits with
    | first :: [] => String.ofList [first]
    | first :: rest => String.ofList (first :: '.' :: rest)
    | [] => ""
  s!"{point}e{d.magnitude}"

end Decimal

namespace Format

def decimal (f : Format) (m : Nat) (e : Int) : Decimal :=
  if m = 0 then ⟨0, 0⟩ else (Decimal.shortest f m e).trim 400

def withSign (negative : Bool) (text : String) : String := if negative then "-" ++ text else text

def plain (f : Format) : Reading → String
  | .notNumber => "NaN"
  | .infinite negative => withSign negative "inf"
  | .finite negative m e => withSign negative (f.decimal m e).positional

def pointed (f : Format) : Reading → String
  | .finite negative m e =>
    let d := f.decimal m e
    withSign negative (if 0 ≤ d.exponent then d.positional ++ ".0" else d.positional)
  | r => f.plain r

def general (f : Format) : Reading → String
  | .finite negative m e =>
    let d := f.decimal m e
    if m ≠ 0 && (16 ≤ d.magnitude || d.magnitude < -4) then withSign negative d.scientific
    else f.pointed (.finite negative m e)
  | r => f.plain r

end Format

def Single.plain (x : Single) : String := Format.single.plain x.reading
def Single.general (x : Single) : String := Format.single.general x.reading
def Double.pointed (x : Double) : String := Format.double.pointed x.reading
def Double.general (x : Double) : String := Format.double.general x.reading

end EntityFoundry
