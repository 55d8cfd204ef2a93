import EntityFoundry.Text.Extending
import EntityFoundry.Text.Unprintable
/-! Text between double quotes. Quote, backslash and the common control characters are escaped by a
letter; what cannot be seen on its own, or would join the character before it, by its number. -/
namespace EntityFoundry.Text

def numbered (c : Char) : List Char := ['\\', 'u', '\x7b'] ++ Nat.toDigits 16 c.toNat ++ ['\x7d']

def isAsciiGraphic (c : Char) : Bool := 0x20 ≤ c.toNat && c.toNat < 0x7f

def escapeChar (c : Char) : List Char :=
  match c with
  | '"' => ['\\', '"']
  | '\\' => ['\\', '\\']
  | '\n' => ['\\', 'n']
  | '\t' => ['\\', 't']
  | '\r' => ['\\', 'r']
  | '\x00' => ['\\', '0']
  | c =>
    if isAsciiGraphic c then [c]
    else if isExtending c || isUnprintable c then numbered c
    else [c]

def quoted (s : String) : String := String.ofList ('"' :: s.toList.flatMap escapeChar ++ ['"'])

end EntityFoundry.Text
