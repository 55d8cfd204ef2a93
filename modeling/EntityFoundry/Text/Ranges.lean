/-! Classes of characters as ranges of codes, first and last included, in ascending order. -/
namespace EntityFoundry.Text

abbrev Ranges := List (Nat × Nat)

def Ranges.cover (ranges : Ranges) (c : Char) : Bool :=
  ranges.any fun r => decide (r.1 ≤ c.toNat) && decide (c.toNat ≤ r.2)

end EntityFoundry.Text
