/-!
# Floating-point numbers

Expressions have numbers of two kinds, integers of any size and 64-bit binary floating point. This
module holds what core does not say about the second kind: the float nearest to a quotient, and so
to a decimal, a binary fraction or an integer; exact comparison with an integer; the remainder of
floored division; and three ways to write a float: with the fewest digits that read back, with a
fixed number of places, and with an exponent.
-/

namespace LittleComputer.Expression.Binary64

def infinity : Float := 1.0 / 0.0

/-- The integer nearest to a quotient; of two nearest ones the even one. -/
def roundedQuotient (top bottom : Nat) : Nat :=
  let q := top / bottom
  let r := top % bottom
  if 2 * r > bottom ∨ (2 * r = bottom ∧ q % 2 = 1) then q + 1 else q

/-- The float nearest to `top / bottom`, infinite if that is too large. The quotient is counted in
units of a power of two that leave 53 bits before the point, or in units of the least positive
float. -/
def ofQuotient (top bottom : Nat) : Float :=
  if top = 0 then 0.0
  else
    let unitsOf (e : Int) : Nat × Nat := (top * Nat.pow 2 (-e).toNat, bottom * Nat.pow 2 e.toNat)
    let low : Int := max ((top.log2 : Int) - (bottom.log2 : Int) - 53) (-1074)
    let e := if (unitsOf low).1 / (unitsOf low).2 < 0x20000000000000 then low else low + 1
    Float.scaleB (Float.ofNat (roundedQuotient (unitsOf e).1 (unitsOf e).2)) e

/-- The float nearest to `digits * 10 ^ exponent`. -/
def ofDecimal (digits : Nat) (exponent : Int) : Float :=
  if digits = 0 then 0.0
  else if exponent > 400 then infinity
  -- Below 2 ^ -1100, which rounds to zero: 10 ^ e is at most 2 ^ (3 e) for a negative e.
  else if (digits.log2 : Int) + 1 + 3 * exponent < -1100 then 0.0
  else ofQuotient (digits * Nat.pow 10 exponent.toNat) (Nat.pow 10 (-exponent).toNat)

/-- The float nearest to `digits * 2 ^ exponent`. -/
def ofBinary (digits : Nat) (exponent : Int) : Float :=
  if digits = 0 then 0.0
  else if (digits.log2 : Int) + exponent > 1100 then infinity
  else if (digits.log2 : Int) + exponent < -1100 then 0.0
  else ofQuotient (digits * Nat.pow 2 exponent.toNat) (Nat.pow 2 (-exponent).toNat)

/-- The float nearest to an integer, if there is a finite one. -/
def ofInt? (v : Int) : Option Float :=
  let x := ofQuotient v.natAbs 1
  if x.isFinite then some (if v < 0 then -x else x) else none

/-- Whether the sign bit is set; it is for the negative zero. -/
def isNegative (x : Float) : Bool := x.toBits.toNat ≥ 0x8000000000000000

/-- A finite float as `mantissa * 2 ^ exponent`. -/
def parts? (x : Float) : Option (Int × Int) :=
  if x.isFinite then
    let bits := x.toBits.toNat
    let biased : Nat := bits / 0x10000000000000 % 2048
    let fraction : Nat := bits % 0x10000000000000
    let magnitude : Nat := if biased = 0 then fraction else 0x10000000000000 + fraction
    let exponent : Int := if biased = 0 then -1074 else (biased : Int) - 1075
    some (if bits < 0x8000000000000000 then (magnitude : Int) else -(magnitude : Int), exponent)
  else none

/-- The integer part of a finite float. -/
def truncate? (x : Float) : Option Int :=
  (parts? x).map fun (m, e) =>
    if e < 0 then m.tdiv (Nat.pow 2 (-e).toNat) else m * Nat.pow 2 e.toNat

/-- Orders floats, NaN above everything else and equal to itself. -/
def order (x y : Float) : Ordering :=
  if x > y then .gt
  else if x < y then .lt
  else if x == y then .eq
  else if x == x then .lt
  else if y == y then .gt
  else .eq

/-- Orders an integer and a float by their exact values. -/
def orderInt (v : Int) (x : Float) : Ordering :=
  match parts? x with
  | some (m, e) =>
    if e < 0 then compare (v * Nat.pow 2 (-e).toNat) m else compare v (m * Nat.pow 2 e.toNat)
  | none => if x < 0.0 then .gt else .lt

/-- The remainder that has the sign of the divisor, which is not zero. -/
def modulo (x y : Float) : Float :=
  match parts? x, parts? y with
  | some (m, e), some (n, f) =>
    let least := min e f
    let r := (m * Nat.pow 2 (e - least).toNat).tmod (n * Nat.pow 2 (f - least).toNat)
    let z := Float.scaleB (Float.ofInt r) least
    if r = 0 then (if isNegative x then -0.0 else 0.0)
    else if (x < 0.0) != (y < 0.0) then z + y
    else z
  | some _, none =>
    if y.isNaN then y else if ((x < 0.0) != (y < 0.0)) && x != 0.0 then x + y else x
  | none, _ => 0.0 / 0.0

/-- Whether `digits * 10 ^ exponent` lies among the reals that round to `m * 2 ^ q`. The gap below
is half as wide when `narrow`; the ends count when `m` is even. -/
def readsBack (m : Nat) (q : Int) (narrow : Bool) (digits : Nat) (exponent : Int) : Bool :=
  let scaled (n : Nat) : Ordering :=
    compare (digits * Nat.pow 10 exponent.toNat * Nat.pow 2 (2 - q).toNat)
      (n * Nat.pow 2 (q - 2).toNat * Nat.pow 10 (-exponent).toNat)
  let low := scaled (if narrow then 4 * m - 1 else 4 * m - 2)
  let high := scaled (4 * m + 2)
  let even := m % 2 == 0
  (low == .gt || (even && low == .eq)) && (high == .lt || (even && high == .eq))

/-- The least `k` with `m * 2 ^ q < 10 ^ k`, searched upward from a lower bound. -/
def scaleFrom (m : Nat) (q : Int) : (fuel : Nat) → Int → Int
  | 0, k => k
  | fuel + 1, k =>
    if m * Nat.pow 2 q.toNat * Nat.pow 10 (-k).toNat < Nat.pow 10 k.toNat * Nat.pow 2 (-q).toNat
      then k
    else scaleFrom m q fuel (k + 1)

/-- Tries grids of more and more digits; the result is a number and a power of ten. -/
def shortestFrom (m : Nat) (q : Int) (narrow : Bool) (scale : Int) : (left : Nat) → Nat × Int
  | 0 => (m * Nat.pow 2 q.toNat * Nat.pow 5 (-q).toNat, min q 0)
  | left + 1 =>
    let exponent := scale - (17 - left : Nat)
    let top := m * Nat.pow 2 q.toNat * Nat.pow 10 (-exponent).toNat
    let unit := Nat.pow 10 exponent.toNat * Nat.pow 2 (-q).toNat
    let below := top / unit
    let fitsBelow := readsBack m q narrow below exponent
    let fitsAbove := readsBack m q narrow (below + 1) exponent
    let nearerAbove := 2 * (top % unit) > unit || (2 * (top % unit) == unit && below % 2 == 1)
    if fitsAbove && (nearerAbove || !fitsBelow) then (below + 1, exponent)
    else if fitsBelow then (below, exponent)
    else shortestFrom m q narrow scale left

/-- The least `k` with `m * 2 ^ q < 10 ^ k`, for a positive `m`. -/
def decimalScale (m : Nat) (q : Int) : Int :=
  scaleFrom m q 8 (((m.log2 : Int) + q) * 30103 / 100000 - 1)

/-- The fewest digits that read back as the positive float `m * 2 ^ q`, and the power of ten of the
last one. -/
def shortest (m : Nat) (q : Int) : Nat × Int :=
  let narrow := m == 0x10000000000000 && q > -1074
  shortestFrom m q narrow (decimalScale m q) 17

/-- Takes the zeros off the end of a list of digits, given last digit first. -/
def dropZeros : List Char → List Char
  | '0' :: rest => dropZeros rest
  | digits => digits

/-- An exponent with its sign and at least two digits. -/
def exponentText (e : Int) : List Char :=
  let power := Nat.toDigits 10 e.natAbs
  (if e < 0 then '-' else '+') :: (if power.length < 2 then '0' :: power else power)

/-- The text of the float `m * 2 ^ q`: positional for decimal exponents from -4 to 5, with a point
in any case, and otherwise with an exponent behind the given mark. -/
def shortestText (mark : Char) (m : Nat) (q : Int) : List Char :=
  if m = 0 then ['0', '.', '0']
  else
    let (n, exponent) := shortest m q
    let all := Nat.toDigits 10 n
    let point : Int := all.length + exponent
    let digits := (dropZeros all.reverse).reverse
    if point - 1 < -4 ∨ point - 1 ≥ 6 then
      let tail := digits.drop 1
      digits.take 1 ++ (if tail.isEmpty then [] else '.' :: tail) ++
        mark :: exponentText (point - 1)
    else if point ≤ 0 then
      '0' :: '.' :: List.replicate (-point).toNat '0' ++ digits
    else
      let whole := digits.take point.toNat
      let fraction := digits.drop point.toNat
      whole ++ List.replicate (point.toNat - whole.length) '0' ++
        '.' :: (if fraction.isEmpty then ['0'] else fraction)

/-- The integer nearest to `m * 2 ^ q / 10 ^ e`. -/
def scaledTo (m : Nat) (q e : Int) : Nat :=
  roundedQuotient (m * Nat.pow 2 q.toNat * Nat.pow 10 (-e).toNat)
    (Nat.pow 10 e.toNat * Nat.pow 2 (-q).toNat)

/-- The text of `m * 2 ^ q` with a fixed number of places behind the point. -/
def fixedText (places : Nat) (m : Nat) (q : Int) : List Char :=
  let digits := Nat.toDigits 10 (scaledTo m q (-places))
  let digits := List.replicate (places + 1 - digits.length) '0' ++ digits
  digits.take (digits.length - places) ++ '.' :: digits.drop (digits.length - places)

/-- The text of `m * 2 ^ q` with one digit before the point, a fixed number of places behind it and
an exponent behind the given mark. -/
def scientificText (mark : Char) (places : Nat) (m : Nat) (q : Int) : List Char :=
  let scale := if m = 0 then 1 else decimalScale m q
  let rounded := scaledTo m q (scale - 1 - places)
  let (n, scale) :=
    if rounded < Nat.pow 10 (places + 1) then (rounded, scale) else (rounded / 10, scale + 1)
  let digits := Nat.toDigits 10 n
  let digits := List.replicate (places + 1 - digits.length) '0' ++ digits
  digits.take 1 ++ '.' :: digits.drop 1 ++ mark :: exponentText (scale - 1)

/-- The text of a float, given how to write the magnitude of a finite one. -/
def textBy (magnitude : Nat → Int → List Char) (x : Float) : List Char :=
  match parts? x with
  | some (m, q) => (if isNegative x then ['-'] else []) ++ magnitude m.natAbs q
  | none => if x.isNaN then "nan".toList else if x < 0.0 then "-inf".toList else "+inf".toList

/-- The text of a float with the fewest digits that read back. -/
def text (x : Float) : List Char := textBy (shortestText 'e') x

/-- The text that a conversion letter makes of a float. The letter `F` stands for itself. -/
def convert? (letter : Char) (x : Float) : Option (List Char) :=
  match letter with
  | 'e' => some (textBy (scientificText 'e' 6) x)
  | 'E' => some (textBy (scientificText 'E' 6) x)
  | 'f' => some (textBy (fixedText 6) x)
  | 'F' => some (if x.isFinite then ['%', 'F'] else text x)
  | 'g' => some (textBy (shortestText 'e') x)
  | 'G' => some (textBy (shortestText 'E') x)
  | _ => none

end LittleComputer.Expression.Binary64
