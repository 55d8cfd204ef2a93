import EntityFoundry.Bytes
/-! The first byte of a MessagePack item: it names the item's kind and carries a small value or
the width of what follows. -/
namespace EntityFoundry.Wire

/-- A `width` is the number of bytes of the number or length after the marker. -/
inductive Marker
  | fixPos (n : Nat)
  | fixNeg (i : Int)
  | fixMap (n : Nat)
  | fixArray (n : Nat)
  | fixStr (n : Nat)
  | fixExt (n : Nat)
  | null
  | reserved
  | bool (b : Bool)
  | bin (width : Nat)
  | ext (width : Nat)
  | str (width : Nat)
  | array (width : Nat)
  | map (width : Nat)
  | float (width : Nat)
  | unsigned (width : Nat)
  | signed (width : Nat)
  deriving DecidableEq, Repr

namespace Marker

def ofHigh : Nat → Marker
  | 0xc0 => .null
  | 0xc1 => .reserved
  | 0xc2 => .bool false
  | 0xc3 => .bool true
  | 0xc4 => .bin 1
  | 0xc5 => .bin 2
  | 0xc6 => .bin 4
  | 0xc7 => .ext 1
  | 0xc8 => .ext 2
  | 0xc9 => .ext 4
  | 0xca => .float 4
  | 0xcb => .float 8
  | 0xcc => .unsigned 1
  | 0xcd => .unsigned 2
  | 0xce => .unsigned 4
  | 0xcf => .unsigned 8
  | 0xd0 => .signed 1
  | 0xd1 => .signed 2
  | 0xd2 => .signed 4
  | 0xd3 => .signed 8
  | 0xd4 => .fixExt 1
  | 0xd5 => .fixExt 2
  | 0xd6 => .fixExt 4
  | 0xd7 => .fixExt 8
  | 0xd8 => .fixExt 16
  | 0xd9 => .str 1
  | 0xda => .str 2
  | 0xdb => .str 4
  | 0xdc => .array 2
  | 0xdd => .array 4
  | 0xde => .map 2
  | 0xdf => .map 4
  | n => .fixNeg (n - 256)

def ofByte (b : UInt8) : Marker :=
  let n := b.toNat
  if n < 0x80 then .fixPos n
  else if n < 0x90 then .fixMap (n - 0x80)
  else if n < 0xa0 then .fixArray (n - 0x90)
  else if n < 0xc0 then .fixStr (n - 0xa0)
  else ofHigh n

def name : Marker → String
  | .fixPos n => s!"FixPos({n})"
  | .fixNeg i => s!"FixNeg({i})"
  | .fixMap n => s!"FixMap({n})"
  | .fixArray n => s!"FixArray({n})"
  | .fixStr n => s!"FixStr({n})"
  | .fixExt n => s!"FixExt{n}"
  | .null => "Null"
  | .reserved => "Reserved"
  | .bool true => "True"
  | .bool false => "False"
  | .bin w => s!"Bin{8 * w}"
  | .ext w => s!"Ext{8 * w}"
  | .str w => s!"Str{8 * w}"
  | .array w => s!"Array{8 * w}"
  | .map w => s!"Map{8 * w}"
  | .float w => s!"F{8 * w}"
  | .unsigned w => s!"U{8 * w}"
  | .signed w => s!"I{8 * w}"

end Marker
end EntityFoundry.Wire
