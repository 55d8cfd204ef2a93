import EntityFoundry.Wire.Target
/-! Records: named fields, written as a map of names or as an array in field order. A reader
passes over entries it does not know, so records can grow. -/
namespace EntityFoundry.Wire

structure Slot (σ : Type) where
  name : String
  filled : σ → Bool
  read : Reader (σ → σ)
  ofByte : UInt8 → Except Fault (σ → σ)

namespace Slot

def ofTarget {σ α : Type} (name : String) (target : Target α) (get : σ → Option α)
    (put : α → σ → σ) : Slot σ where
  name := name
  filled s := (get s).isSome
  read := put <$> target.read
  ofByte b := put <$> target.ofByte b

end Slot

/-- A record with fields of `σ` that is complete as a `τ`. `finish` is given the fault of an
absent field. -/
structure Shape (σ τ : Type) where
  name : String
  slots : List (Slot σ)
  start : σ
  finish : (String → Fault) → σ → Except Fault τ

inductive Key
  | name (raw : Bytes)
  | position (n : Nat)
  deriving DecidableEq, Repr

def readKey (room : Nat) : Reader Key := do
  match ← readHead with
  | .text raw | .binary raw => return .name raw
  -- The signed forms are refused whatever number they spell.
  | .scalar (.int false i) => return .position i.toNat
  | head => throw (head.refusal room "field identifier")

namespace Slot
variable {σ : Type}

def find (slots : List (Slot σ)) : Key → Option (Slot σ)
  | .name raw => slots.find? fun slot => Text.Utf8.encode slot.name == raw
  | .position n => slots[n]?

def readEntries (room : Nat) (slots : List (Slot σ)) : (n : Nat) → σ → Reader σ
  | 0, s => pure s
  | n + 1, s => do
    match find slots (← readKey room) with
    | none =>
      skip room
      readEntries room slots n s
    | some slot =>
      if slot.filled s then throw (.duplicateField slot.name)
      else
        let put ← slot.read
        readEntries room slots n (put s)

def readElements : List (Slot σ) → (n : Nat) → σ → Reader σ
  | [], _, s => pure s
  | _, 0, s => pure s
  | slot :: slots, n + 1, s => do
    let put ← slot.read
    readElements slots n (put s)

def fillBytes : List (Slot σ) → Bytes → σ → Except Fault σ
  | [], _, s => .ok s
  | _, [], s => .ok s
  | slot :: slots, b :: bytes, s => do
    let put ← slot.ofByte b
    fillBytes slots bytes (put s)

end Slot

namespace Shape
variable {σ τ : Type}

def expected (shape : Shape σ τ) : String := "struct " ++ shape.name

def expectedLength (shape : Shape σ τ) : String :=
  let n := shape.slots.length
  s!"{shape.expected} with {n} " ++ if n = 1 then "element" else "elements"

def tooShort (shape : Shape σ τ) (n : Nat) (_ : String) : Fault :=
  .wrongLength n shape.expectedLength

/-- `room` counts the record itself; the slots read inside it. -/
def target (shape : Shape σ τ) (room : Nat) : Target τ where
  expected := shape.expected
  read := do
    match ← readHead with
    | .array n =>
      if room = 0 then throw .depthLimit
      else
        let s ← Slot.readElements shape.slots n shape.start
        let x ← liftM (shape.finish (shape.tooShort n) s)
        if shape.slots.length < n then throw (.excess shape.slots.length) else return x
    | .map n =>
      if room = 0 then throw .depthLimit
      else
        let s ← Slot.readEntries (room - 1) shape.slots n shape.start
        liftM (shape.finish .missingField s)
    | .binary raw =>
      let s ← liftM (Slot.fillBytes shape.slots raw shape.start)
      liftM (shape.finish (shape.tooShort raw.length) s)
    | head => throw (head.refusal room shape.expected)
  ofByte := Target.refuseByte shape.expected

end Shape
end EntityFoundry.Wire
