import EntityFoundry.Wire.Reader
/-! What can be asked of a byte string. A target reads itself from an item, and says what becomes
of a plain byte: a byte string stands for the sequence of its bytes where a sequence is asked for. -/
namespace EntityFoundry.Wire

structure Target (α : Type) where
  expected : String
  read : Reader α
  ofByte : UInt8 → Except Fault α

namespace Target
variable {α β : Type}

def refuseByte (expected : String) (b : UInt8) : Except Fault α :=
  .error (.wrongType (.integer b.toNat) expected)

def scalar (expected : String) (accept : Scalar → Except Fault α) : Target α where
  expected := expected
  read := do
    let m ← readMarker
    match readScalar? m with
    | none => throw (.marker m)
    | some rest =>
      match accept (← rest) with
      | .ok x => return x
      | .error fault => throw fault
  ofByte b := accept (.int false b.toNat)

def unsigned (bound : Nat) (expected : String) : Target Nat :=
  scalar expected fun
    | .int _ i =>
      if 0 ≤ i ∧ i < bound then .ok i.toNat else .error (.wrongValue (.integer i) expected)
    | x => .error (.wrongType x.found expected)

def u8 : Target Nat := unsigned 0x100 "u8"
def u32 : Target Nat := unsigned 0x100000000 "u32"
def u64 : Target Nat := unsigned 0x10000000000000000 "u64"
def index : Target Nat := unsigned 0x10000000000000000 "usize"

def single : Target Single :=
  scalar "f32" fun
    | .int _ i => .ok (Single.ofInt i)
    | .single x => .ok x
    | .double x => .ok (Single.ofDouble x)
    | x => .error (.wrongType x.found "f32")

def text (expected : String) (room : Nat) : Target String where
  expected := expected
  read := do
    match ← readHead with
    | .text raw =>
      match Text.Utf8.decode raw with
      | .ok s => return s
      | .error f => throw (.utf8 f)
    | .binary raw =>
      match Text.Utf8.decode raw with
      | .ok s => return s
      | .error _ => throw (.wrongValue .bytes expected)
    | head => throw (head.refusal room expected)
  ofByte := refuseByte expected

def optional (inner : Target α) : Target (Option α) where
  expected := "option"
  read bytes :=
    if bytes.head? = some 0xc0 then .ok (none, bytes.tail) else (some <$> inner.read) bytes
  ofByte := refuseByte "option"

def list (room : Nat) (item : Target α) : Target (List α) where
  expected := "a sequence"
  read := do
    match ← readHead with
    | .array n => if room = 0 then throw .depthLimit else readMany item.read n []
    | .binary raw => liftM (raw.mapM item.ofByte)
    | head => throw (head.refusal room "a sequence")
  ofByte := refuseByte "a sequence"

def triple (room : Nat) (item : Target α) : Target (α × α × α) where
  expected := "an array of length 3"
  read := do
    match ← readHead with
    | .array n =>
      if room = 0 then throw .depthLimit
      else
        match ← readMany item.read (min n 3) [] with
        | [x, y, z] => if n = 3 then return (x, y, z) else throw (.excess 3)
        | few => throw (.wrongLength few.length "an array of length 3")
    | .binary raw =>
      match ← liftM ((raw.take 3).mapM item.ofByte) with
      | [x, y, z] => return (x, y, z)
      | few => throw (.wrongLength few.length "an array of length 3")
    | head => throw (head.refusal room "an array of length 3")
  ofByte := refuseByte "an array of length 3"

def decode (t : Target α) (bytes : Bytes) : Except Fault α := (t.read bytes).map (·.1)

end Target
end EntityFoundry.Wire
