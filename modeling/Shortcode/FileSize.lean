import Shortcode.Text.Natural

/-!
# File sizes

A size in bytes is shown as a whole number of a unit. The unit follows from the
number of decimal digits, one step for every three of them; each step divides by
1024. The size is first rounded to 53 significant bits, to the even one of two
neighbours at equal distance; the quotient is rounded to the nearest whole
number, a half away from zero.
-/

namespace Shortcode.FileSize

/-- The units, each 1024 times the one before. -/
def units : List String :=
  ["Bytes", "KB", "MB", "GB", "TB", "PB"]

/-- The number of a unit for a size. -/
def unitIndex (bytes : Nat) : Nat :=
  min (((decimal bytes).length - 1) / 3) (units.length - 1)

/-- A size rounded to 53 significant bits, ties to the even neighbour. -/
def roundBits (bytes : Nat) : Nat :=
  let unit := Nat.pow 2 (bytes.log2 + 1 - 53)
  let low := bytes / unit
  let rest := bytes % unit
  if 2 * rest < unit then low * unit
  else if unit < 2 * rest then (low + 1) * unit
  else if low % 2 = 0 then low * unit
  else (low + 1) * unit

/-- The number shown for a size, in its unit. -/
def shown (bytes : Nat) : Nat :=
  let unit := Nat.pow 1024 (unitIndex bytes)
  (2 * roundBits bytes + unit) / (2 * unit)

/-- A size for people. -/
def text (bytes : Nat) : Text :=
  decimal (shown bytes) ++ (units.getD (unitIndex bytes) "").toList

end Shortcode.FileSize
