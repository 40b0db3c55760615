/-!
# Ranges of characters

A class of characters as closed ranges of code points in increasing order.
-/

namespace AccountVault.Text

/-- Closed ranges of code points: the first and the last of each. -/
abbrev Ranges := Array (UInt32 × UInt32)

/-- Whether a character lies in one of the ranges. -/
def Ranges.contains (rs : Ranges) (c : Char) : Bool := rs.any fun r => r.1 ≤ c.val && c.val ≤ r.2

end AccountVault.Text
