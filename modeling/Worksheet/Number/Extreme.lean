/-!
# The Greater and the Smaller of Two Numbers

A double that is not a number takes part in no comparison, so it must lose to
any number it is put beside. Both functions answer with the other argument
then, whichever side the odd one is on. Zero and negative zero are equal and
yet written differently; of two equal arguments the second is the answer.

## Main definitions

* `greater`, `smaller`: The winner of a comparison.
-/

namespace Worksheet

namespace Number

/-- The greater of two doubles; one that is not a number loses. -/
def greater (x y : Float) : Float :=
  if y.isNaN then x else if y < x then x else y

/-- The smaller of two doubles; one that is not a number loses. -/
def smaller (x y : Float) : Float :=
  if y.isNaN then x else if x < y then x else y

end Number

end Worksheet
