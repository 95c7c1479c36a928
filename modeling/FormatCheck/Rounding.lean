/-!
# Rounding of quotients

The nearest integer to a quotient of natural numbers, a half going to the even neighbour. Reading a
decimal, narrowing a float and cutting a decimal expansion all round through this one function.
-/

namespace FormatCheck
namespace Rounding

/-- The integer nearest to `n / d`; of two equally near the even one. -/
def divHalfEven (n d : Nat) : Nat :=
  let q := n / d
  let r := n % d
  if 2 * r < d then q
  else if d < 2 * r then q + 1
  else q + q % 2

end Rounding
end FormatCheck
