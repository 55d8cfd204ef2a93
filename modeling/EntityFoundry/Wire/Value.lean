import EntityFoundry.Wire.Reader
import EntityFoundry.Wire.Writer
/-! Values of any kind. Text that is not well formed reads as a byte string; extension items have
no value. -/
namespace EntityFoundry.Wire

inductive Value
  | nil
  | bool (b : Bool)
  | int (i : Int)
  | single (x : Single)
  | double (x : Double)
  | text (s : String)
  | binary (raw : Bytes)
  | array (items : List Value)
  | map (entries : List (Value × Value))

namespace Value

instance : Inhabited Value := ⟨nil⟩

def ofScalar : Scalar → Value
  | .nil => .nil
  | .bool b => .bool b
  | .int _ i => .int i
  | .single x => .single x
  | .double x => .double x

def ofText (raw : Bytes) : Value :=
  match Text.Utf8.decode raw with
  | .ok s => .text s
  | .error _ => .binary raw

def read : (room : Nat) → Reader Value
  | 0 => do
    match ← readHead with
    | .scalar x => return ofScalar x
    | .text raw => return ofText raw
    | .binary raw => return .binary raw
    | head => throw (head.refusal 0 "a value")
  | room + 1 => do
    match ← readHead with
    | .scalar x => return ofScalar x
    | .text raw => return ofText raw
    | .binary raw => return .binary raw
    | .array n => return .array (← readMany (read room) n [])
    | .map n =>
      let entry : Reader (Value × Value) := do
        let key ← read room
        return (key, ← read room)
      return .map (← readMany entry n [])
    | .ext n => throw ((Head.ext n).refusal (room + 1) "a value")

def decode (bytes : Bytes) : Except Fault Value := (read maxOpen bytes).map (·.1)

mutual

def put : Value → Bytes → Bytes
  | .nil, rest => putNil rest
  | .bool b, rest => putBool b rest
  | .int i, rest => putInt i rest
  | .single x, rest => putSingle x rest
  | .double x, rest => putDouble x rest
  | .text s, rest => putText s rest
  | .binary raw, rest => putBinary raw rest
  | .array items, rest => putArray items.length (putItems items rest)
  | .map entries, rest => putMap entries.length (putEntries entries rest)

def putItems : List Value → Bytes → Bytes
  | [], rest => rest
  | x :: xs, rest => put x (putItems xs rest)

def putEntries : List (Value × Value) → Bytes → Bytes
  | [], rest => rest
  | (k, x) :: xs, rest => put k (put x (putEntries xs rest))

end

def encode (x : Value) : Bytes := x.put []

end Value
end EntityFoundry.Wire
