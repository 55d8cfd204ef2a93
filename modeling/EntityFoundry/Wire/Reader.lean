import EntityFoundry.Wire.Fault
/-! Reading from the front of a byte string. A reader returns what it read and the bytes after it,
or the first fault. Items are read by their head: scalars, text and byte strings whole, containers
up to their length. `room` is the number of containers that may still be opened. -/
namespace EntityFoundry.Wire

abbrev Reader := StateT Bytes (Except Fault)

def maxOpen : Nat := 1023

def takeByte (fault : Fault) : Reader UInt8 := fun bytes =>
  match bytes with
  | [] => .error fault
  | b :: rest => .ok (b, rest)

def takeBytes (fault : Fault) (n : Nat) : Reader Bytes := fun bytes =>
  let front := bytes.take n
  if front.length = n then .ok (front, bytes.drop n) else .error fault

def readMarker : Reader Marker := do return Marker.ofByte (← takeByte .noMarker)

def readNat (width : Nat) : Reader Nat := do
  return Bytes.toNat (← takeBytes .shortNumber width)

def toSigned (width n : Nat) : Int :=
  if 2 * n < Bytes.span width then n else (n : Int) - Bytes.span width

/-- `signed` tells the forms that can spell negative numbers. -/
inductive Scalar
  | nil
  | bool (b : Bool)
  | int (signed : Bool) (i : Int)
  | single (x : Single)
  | double (x : Double)
  deriving DecidableEq, Repr

inductive Head
  | scalar (x : Scalar)
  | text (raw : Bytes)
  | binary (raw : Bytes)
  | array (n : Nat)
  | map (n : Nat)
  | ext (n : Nat)
  deriving DecidableEq, Repr

def readScalar? : Marker → Option (Reader Scalar)
  | .null => some (pure .nil)
  | .bool b => some (pure (.bool b))
  | .fixPos n => some (pure (.int false n))
  | .fixNeg i => some (pure (.int true i))
  | .unsigned w => some do return .int false (← readNat w)
  | .signed w => some do return .int true (toSigned w (← readNat w))
  | .float w => some do
    let n ← readNat w
    return if w = 4 then .single ⟨UInt32.ofNat n⟩ else .double ⟨UInt64.ofNat n⟩
  | _ => none

def readText (n : Nat) : Reader Head := do return .text (← takeBytes .shortContents n)
def readBinary (n : Nat) : Reader Head := do return .binary (← takeBytes .shortContents n)

def readHeadAfter (m : Marker) : Reader Head :=
  match readScalar? m with
  | some scalar => do return .scalar (← scalar)
  | none =>
    match m with
    | .fixStr n => readText n
    | .str w => do readText (← readNat w)
    | .bin w => do readBinary (← readNat w)
    | .fixArray n => pure (.array n)
    | .array w => do return .array (← readNat w)
    | .fixMap n => pure (.map n)
    | .map w => do return .map (← readNat w)
    | .fixExt n => pure (.ext n)
    | .ext w => do return .ext (← readNat w)
    | m => throw (.marker m)

def readHead : Reader Head := do readHeadAfter (← readMarker)

def Scalar.found : Scalar → Found
  | .nil => .unit
  | .bool b => .bool b
  | .int _ i => .integer i
  | .single x => .number x.toDouble
  | .double x => .number x

/-- The fault of a head that is not accepted. Text has to be well formed and a container has to
fit before it is found to be of the wrong type. -/
def Head.refusal (head : Head) (room : Nat) (expected : String) : Fault :=
  let container (found : Found) : Fault :=
    if room = 0 then .depthLimit else .wrongType found expected
  match head with
  | .scalar x => .wrongType x.found expected
  | .text raw =>
    match Text.Utf8.decode raw with
    | .ok s => .wrongType (.text s) expected
    | .error f => .utf8 f
  | .binary _ => .wrongType .bytes expected
  | .array _ => container .sequence
  | .map _ => container .map
  | .ext _ => container .wrapped

def readMany {α : Type} (item : Reader α) : (n : Nat) → (seen : List α) → Reader (List α)
  | 0, seen => pure seen.reverse
  | n + 1, seen => do
    let x ← item
    readMany item n (x :: seen)

def times (n : Nat) (item : Reader Unit) : Reader Unit :=
  match n with
  | 0 => pure ()
  | n + 1 => do
    item
    times n item

def skip : (room : Nat) → Reader Unit
  | 0 => do
    match ← readHead with
    | .array _ | .map _ | .ext _ => throw .depthLimit
    | _ => pure ()
  | room + 1 => do
    match ← readHead with
    | .array n => times n (skip room)
    | .map n => times n do
      skip room
      skip room
    | .ext n =>
      let _ ← takeByte .shortNumber
      let _ ← takeBytes .shortContents n
    | _ => pure ()

end EntityFoundry.Wire
