import EntityFoundry.Wire.Marker
import EntityFoundry.Text.Utf8
import EntityFoundry.Text.Quoted
import EntityFoundry.Number.Decimal
/-! Why bytes do not read as what was asked for, and the wording of each cause. -/
namespace EntityFoundry.Wire

inductive Found
  | unit
  | bool (b : Bool)
  | integer (i : Int)
  | number (x : Double)
  | text (s : String)
  | bytes
  | sequence
  | map
  | wrapped
  deriving DecidableEq, Repr

def Found.describe : Found → String
  | .unit => "unit value"
  | .bool b => s!"boolean `{b}`"
  | .integer i => s!"integer `{i}`"
  | .number x => s!"floating point `{x.pointed}`"
  | .text s => "string " ++ Text.quoted s
  | .bytes => "byte array"
  | .sequence => "sequence"
  | .map => "map"
  | .wrapped => "newtype struct"

inductive Fault
  | noMarker
  | shortNumber
  | shortContents
  | marker (m : Marker)
  | excess (read : Nat)
  | utf8 (f : Text.Utf8.Fault)
  | depthLimit
  | wrongType (found : Found) (expected : String)
  | wrongValue (found : Found) (expected : String)
  | wrongLength (length : Nat) (expected : String)
  | missingField (name : String)
  | duplicateField (name : String)
  deriving DecidableEq, Repr

def Fault.message : Fault → String
  | .noMarker => "IO error while reading marker: failed to fill whole buffer"
  | .shortNumber => "IO error while reading data: failed to fill whole buffer"
  | .shortContents => "IO error while reading data: unexpected end of file"
  | .marker m => "wrong msgpack marker " ++ m.name
  | .excess n => s!"array had incorrect length, expected {n}"
  | .utf8 f => "string found to be invalid utf8: " ++ f.message
  | .depthLimit => "depth limit exceeded"
  | .wrongType found expected => "invalid type: " ++ found.describe ++ ", expected " ++ expected
  | .wrongValue found expected => "invalid value: " ++ found.describe ++ ", expected " ++ expected
  | .wrongLength n expected => s!"invalid length {n}, expected {expected}"
  | .missingField name => s!"missing field `{name}`"
  | .duplicateField name => s!"duplicate field `{name}`"

end EntityFoundry.Wire
