/-! Lower-case hexadecimal text of a fixed width. -/
namespace EntityFoundry.Text

def hex (width n : Nat) : String :=
  let digits := Nat.toDigits 16 n
  String.ofList (List.replicate (width - digits.length) '0' ++ digits)

end EntityFoundry.Text
