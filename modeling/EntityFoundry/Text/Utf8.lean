import EntityFoundry.Bytes
/-! UTF-8. Decoding stops at the first byte that cannot be part of a character and tells
where it stands and how many bytes are at fault; a text that merely ends inside a character is
told apart. -/
namespace EntityFoundry.Text.Utf8

/-- Where well-formed text ends. `length` counts the bytes at fault and is absent where the text
ends inside a character. -/
structure Fault where
  index : Nat
  length : Option Nat
  deriving DecidableEq, Repr

def Fault.message (f : Fault) : String :=
  match f.length with
  | some n => s!"invalid utf-8 sequence of {n} bytes from index {f.index}"
  | none => s!"incomplete utf-8 byte sequence from index {f.index}"

def encodeChar (c : Char) : Bytes :=
  let n := c.toNat
  if n < 0x80 then [UInt8.ofNat n]
  else if n < 0x800 then [UInt8.ofNat (0xc0 + n / 64), UInt8.ofNat (0x80 + n % 64)]
  else if n < 0x10000 then
    [UInt8.ofNat (0xe0 + n / 4096), UInt8.ofNat (0x80 + n / 64 % 64), UInt8.ofNat (0x80 + n % 64)]
  else
    [UInt8.ofNat (0xf0 + n / 262144), UInt8.ofNat (0x80 + n / 4096 % 64),
      UInt8.ofNat (0x80 + n / 64 % 64), UInt8.ofNat (0x80 + n % 64)]

def encode (s : String) : Bytes := s.toList.flatMap encodeChar

def size : List Char → Nat
  | [] => 0
  | c :: cs => c.utf8Size + size cs

def take : (bytes : Nat) → List Char → List Char
  | 0, _ => []
  | _, [] => []
  | n + 1, c :: cs => c :: take (n + 1 - c.utf8Size) cs

def drop : (bytes : Nat) → List Char → List Char
  | 0, cs => cs
  | _, [] => []
  | n + 1, c :: cs => drop (n + 1 - c.utf8Size) cs

def isTail (b : UInt8) : Bool := 0x80 ≤ b && b ≤ 0xbf

/-- The second bytes that keep a three-byte character shortest and no surrogate. -/
def secondOfThree (a b : UInt8) : Bool :=
  if a = 0xe0 then 0xa0 ≤ b && b ≤ 0xbf
  else if a = 0xed then 0x80 ≤ b && b ≤ 0x9f
  else isTail b

def secondOfFour (a b : UInt8) : Bool :=
  if a = 0xf0 then 0x90 ≤ b && b ≤ 0xbf
  else if a = 0xf4 then 0x80 ≤ b && b ≤ 0x8f
  else isTail b

def charOfTwo (a b : UInt8) : Char :=
  Char.ofNat ((a.toNat - 0xc0) * 64 + (b.toNat - 0x80))

def charOfThree (a b c : UInt8) : Char :=
  Char.ofNat ((a.toNat - 0xe0) * 4096 + (b.toNat - 0x80) * 64 + (c.toNat - 0x80))

def charOfFour (a b c d : UInt8) : Char :=
  Char.ofNat ((a.toNat - 0xf0) * 262144 + (b.toNat - 0x80) * 4096 + (c.toNat - 0x80) * 64 +
    (d.toNat - 0x80))

def decodeFrom (i : Nat) (seen : List Char) : Bytes → Except Fault (List Char)
  | [] => .ok seen.reverse
  | a :: rest =>
    if a < 0x80 then decodeFrom (i + 1) (Char.ofNat a.toNat :: seen) rest
    else if a < 0xc2 then .error ⟨i, some 1⟩
    else if a < 0xe0 then
      match rest with
      | [] => .error ⟨i, none⟩
      | b :: rest =>
        if isTail b then decodeFrom (i + 2) (charOfTwo a b :: seen) rest
        else .error ⟨i, some 1⟩
    else if a < 0xf0 then
      match rest with
      | [] => .error ⟨i, none⟩
      | b :: rest =>
        if secondOfThree a b then
          match rest with
          | [] => .error ⟨i, none⟩
          | c :: rest =>
            if isTail c then decodeFrom (i + 3) (charOfThree a b c :: seen) rest
            else .error ⟨i, some 2⟩
        else .error ⟨i, some 1⟩
    else if a < 0xf5 then
      match rest with
      | [] => .error ⟨i, none⟩
      | b :: rest =>
        if secondOfFour a b then
          match rest with
          | [] => .error ⟨i, none⟩
          | c :: rest =>
            if isTail c then
              match rest with
              | [] => .error ⟨i, none⟩
              | d :: rest =>
                if isTail d then decodeFrom (i + 4) (charOfFour a b c d :: seen) rest
                else .error ⟨i, some 3⟩
            else .error ⟨i, some 2⟩
        else .error ⟨i, some 1⟩
    else .error ⟨i, some 1⟩

def decode (bytes : Bytes) : Except Fault String := (decodeFrom 0 [] bytes).map String.ofList

end EntityFoundry.Text.Utf8
