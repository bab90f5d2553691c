/-!
# Runs of code points

A property of characters is kept as the lengths of runs: so many code points do not have it, so many
then have it, and so on in turn. Whatever the lengths are, the runs ascend and do not overlap.
-/

namespace Custody.Text

/-- Lengths of runs without and with the property, in turn. -/
abbrev Runs := List Nat

namespace Runs

/-- The code point, counted from the first run on, lies in a run with the property. -/
def covers : Runs → Nat → Bool
  | without :: within :: rest, n =>
    if n < without + within then decide (without ≤ n) else covers rest (n - (without + within))
  | _, _ => false

end Runs

end Custody.Text
