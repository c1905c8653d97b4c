/-!
Classes of characters given by a table of closed ranges of code points.
-/

namespace Scriptlet.Text

def inRanges (table : List (Nat × Nat)) (c : Char) : Bool :=
  table.any fun r => r.1 ≤ c.toNat && c.toNat ≤ r.2

end Scriptlet.Text
