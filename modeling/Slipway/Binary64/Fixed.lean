import Slipway.Binary64.Basic
import Slipway.Text.Digit

/-!
# `Slipway.Binary64.Fixed`: a fixed number of decimal places

The exact value of the number is rounded once, a tie to the even last digit. The sign of a number
that rounds to zero stays.
-/

set_option autoImplicit false

namespace Slipway.Binary64

/-- A number with `places` digits after the point; no point if there are none. -/
def fixed (places : Nat) : Binary64 → String
  | nan => "nan"
  | infinite s => if s then "-inf" else "inf"
  | finite s m e =>
    let r := ratio m e
    let n := roundQuotient (r.1 * Nat.pow 10 places) r.2
    let whole := toString (n / Nat.pow 10 places)
    let fraction :=
      if places = 0 then "" else "." ++ Text.Digit.atLeast places (n % Nat.pow 10 places)
    (if s then "-" else "") ++ whole ++ fraction

end Slipway.Binary64
