import EntityFoundry.Text.Utf8
import EntityFoundry.Number.Binary
/-! Writing in front of the bytes that follow, each item in its shortest form. -/
namespace EntityFoundry.Wire

def putWide (marker : UInt8) (width n : Nat) (rest : Bytes) : Bytes :=
  marker :: (Bytes.ofNat width n ++ rest)

def putUnsigned (n : Nat) (rest : Bytes) : Bytes :=
  if n < 0x80 then UInt8.ofNat n :: rest
  else if n < 0x100 then putWide 0xcc 1 n rest
  else if n < 0x10000 then putWide 0xcd 2 n rest
  else if n < 0x100000000 then putWide 0xce 4 n rest
  else putWide 0xcf 8 n rest

def putInt (i : Int) (rest : Bytes) : Bytes :=
  if 0 ≤ i then putUnsigned i.toNat rest
  else if -32 ≤ i then UInt8.ofNat (i + 256).toNat :: rest
  else if -0x80 ≤ i then putWide 0xd0 1 (i + 0x100).toNat rest
  else if -0x8000 ≤ i then putWide 0xd1 2 (i + 0x10000).toNat rest
  else if -0x80000000 ≤ i then putWide 0xd2 4 (i + 0x100000000).toNat rest
  else putWide 0xd3 8 (i + 0x10000000000000000).toNat rest

def putNil (rest : Bytes) : Bytes := 0xc0 :: rest

def putBool (b : Bool) (rest : Bytes) : Bytes := (if b then 0xc3 else 0xc2) :: rest

def putSingle (x : Single) (rest : Bytes) : Bytes := putWide 0xca 4 x.bits.toNat rest

def putDouble (x : Double) (rest : Bytes) : Bytes := putWide 0xcb 8 x.bits.toNat rest

def putText (s : String) (rest : Bytes) : Bytes :=
  let raw := Text.Utf8.encode s
  let n := raw.length
  let tail := raw ++ rest
  if n < 32 then UInt8.ofNat (0xa0 + n) :: tail
  else if n < 0x100 then putWide 0xd9 1 n tail
  else if n < 0x10000 then putWide 0xda 2 n tail
  else putWide 0xdb 4 n tail

def putBinary (raw : Bytes) (rest : Bytes) : Bytes :=
  let n := raw.length
  let tail := raw ++ rest
  if n < 0x100 then putWide 0xc4 1 n tail
  else if n < 0x10000 then putWide 0xc5 2 n tail
  else putWide 0xc6 4 n tail

def putArray (n : Nat) (elements : Bytes) : Bytes :=
  if n < 16 then UInt8.ofNat (0x90 + n) :: elements
  else if n < 0x10000 then putWide 0xdc 2 n elements
  else putWide 0xdd 4 n elements

def putMap (n : Nat) (entries : Bytes) : Bytes :=
  if n < 16 then UInt8.ofNat (0x80 + n) :: entries
  else if n < 0x10000 then putWide 0xde 2 n entries
  else putWide 0xdf 4 n entries

end EntityFoundry.Wire
