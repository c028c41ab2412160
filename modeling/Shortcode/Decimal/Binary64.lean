import Shortcode.Text.Natural

/-!
# Floating point numbers

The positive numbers of the format with 53 significant bits, as a mantissa times a
power of two, and zero. A fraction is rounded to the nearest of them, to the even
mantissa if two are equally near. In decimal a number is written with the fewest
digits that are read as the same number again; of several such texts the nearest one
counts.
-/

namespace Shortcode

/-- The quotient of two numbers, rounded to the nearest whole number, of two to the
    even one. -/
def roundHalfEven (num den : Nat) : Nat :=
  let low := num / den
  let rest := num % den
  if 2 * rest < den then low
  else if den < 2 * rest then low + 1
  else if low % 2 = 0 then low
  else low + 1

/-- The number `mantissa * 2 ^ exponent`. -/
structure Binary64 where
  mantissa : Nat
  exponent : Int
  deriving DecidableEq, Repr

namespace Binary64

/-- The least exponent. -/
def minExponent : Int := -1074

/-- The greatest exponent. -/
def maxExponent : Int := 971

/-- The number of bits of a mantissa. -/
def precision : Nat := 53

/-- Zero. -/
def zero : Binary64 :=
  ⟨0, minExponent⟩

/-- A fraction times a power of two, as a fraction. -/
def scale (num den : Nat) (power : Int) : Nat × Nat :=
  (num * Nat.pow 2 power.toNat, den * Nat.pow 2 (-power).toNat)

/-- The greatest power of two that is at most `num / den`. -/
def binade (num den : Nat) : Int :=
  let guess : Int := num.log2 - den.log2
  let (n, d) := scale num den (-guess)
  if d ≤ n then guess else guess - 1

/-- The number nearest to `num / den`; `none` if it is beyond the greatest one. -/
def nearest? (num den : Nat) : Option Binary64 :=
  if num = 0 then some zero
  else
    let exponent := max minExponent (binade num den - (precision - 1))
    let (n, d) := scale num den (-exponent)
    let mantissa := roundHalfEven n d
    let found : Binary64 :=
      if mantissa = Nat.pow 2 precision then ⟨Nat.pow 2 (precision - 1), exponent + 1⟩
      else ⟨mantissa, exponent⟩
    if found.exponent ≤ maxExponent then some found else none

/-- The number nearest to `digits * 10 ^ power`. -/
def ofDecimal? (digits : Nat) (power : Int) : Option Binary64 :=
  if digits = 0 then some zero
  else
    let magnitude := power + (decimal digits).length
    if 400 < magnitude then none
    else if magnitude < -400 then some zero
    else nearest? (digits * Nat.pow 10 power.toNat) (Nat.pow 10 (-power).toNat)

/-- The distances to the ends of the interval of numbers that are rounded to a
    number, in quarters of its last bit. The end below is nearer if the next number
    below has a smaller exponent. -/
def margins (x : Binary64) : Nat × Nat :=
  if x.mantissa = Nat.pow 2 (precision - 1) ∧ minExponent < x.exponent then (1, 2) else (2, 2)

/-- Whether `n / d` is rounded to a number, where both are given as multiples of a
    quarter of its last bit. -/
def accepts (x : Binary64) (n d : Nat) : Bool :=
  let (below, above) := x.margins
  let low := (4 * x.mantissa - below) * d
  let high := (4 * x.mantissa + above) * d
  if x.mantissa % 2 = 0 then low ≤ n && n ≤ high else low < n && n < high

/-- The multiple of `10 ^ power` that stands for a number, if one does. -/
def hit? (x : Binary64) (power : Int) : Option Nat :=
  -- `num / den` is `10 ^ power` in quarters of the last bit
  let (num, den) := scale (Nat.pow 10 power.toNat) (Nat.pow 10 (-power).toNat) (2 - x.exponent)
  let below := 4 * x.mantissa * den / num
  let rest := 4 * x.mantissa * den % num
  let nearer := roundHalfEven (4 * x.mantissa * den) num
  let other := if nearer = below then below + 1 else below
  if x.accepts (nearer * num) den then some nearer
  else if rest ≠ 0 && x.accepts (other * num) den then some other
  else none

/-- The digits of a number and the power of ten of the last one, on the first grid
    from `10 ^ power` downward that has a hit. -/
def digits (x : Binary64) (power : Int) : (steps : Nat) → Nat × Int
  | 0 => (0, 0)
  | steps + 1 =>
    match x.hit? power with
    | some d => (d, power)
    | none => digits x (power - 1) steps

/-- The fewest digits of a number. -/
def shortest (x : Binary64) : Nat × Int :=
  x.digits 309 640

/-- A number in decimal. From `10 ^ -5` up to `10 ^ 16` it is written out, with at
    least one digit behind the point; beyond, with a power of ten. -/
def text (x : Binary64) : Text :=
  if x.mantissa = 0 then "0.0".toList
  else
    let (d, power) := x.shortest
    let ds := decimal d
    let point := power + ds.length
    if 0 ≤ power ∧ point ≤ 16 then ds ++ List.replicate power.toNat '0' ++ ".0".toList
    else if 0 < point ∧ point ≤ 16 then ds.take point.toNat ++ '.' :: ds.drop point.toNat
    else if -5 < point ∧ point ≤ 0 then
      "0.".toList ++ List.replicate (-point).toNat '0' ++ ds
    else
      let front := ds.take 1
      let back := ds.drop 1
      front ++ (if back.isEmpty then [] else '.' :: back) ++ 'e' :: signed (point - 1)

end Binary64

end Shortcode
