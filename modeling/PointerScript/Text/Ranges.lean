/-! Sets of characters given by ranges of code points. -/

namespace PointerScript.Text

/-- Ranges of code points, both ends included. -/
abbrev Ranges := Array (Nat × Nat)

def Ranges.holds (table : Ranges) (c : Char) : Bool :=
  table.any fun range => range.1 ≤ c.toNat && c.toNat ≤ range.2

end PointerScript.Text
