/-!
# Decimals and binary floating-point numbers

The numbers of the 64-bit binary format, as exact values. A decimal stands for the nearest one, of two
equally near the one with the even mantissa. A binary number is written with the fewest digits that are
read as the same number, and among those with the digits nearest to it.

* `Binary64` — a number of the format.
* `Binary64.ofDecimal` — the number nearest to a decimal.
* `Decimal.shortest` — the digits and the exponent of a positive number.
* `DecimalFormat`, `DecimalFormat.write` — how digits and exponents are laid out.
-/

namespace RenderTree

/-- A number of the 64-bit binary format: not a number, an infinity, or `± mantissa · 2 ^ exponent`. -/
inductive Binary64 where
  | notANumber
  | infinity (negative : Bool)
  | finite (negative : Bool) (mantissa : Nat) (exponent : Int)
deriving DecidableEq, Repr, Inhabited

namespace Binary64

/-- The least exponent of the format. -/
def minExponent : Int := -1074

/-- The greatest exponent of the format. -/
def maxExponent : Int := 971

/-- The least mantissa of numbers whose exponent is not the least one. -/
def minMantissa : Nat := Nat.pow 2 52

/-- The numerator and the denominator of `n / d · b ^ (-e)`. -/
def scale (n d b : Nat) (e : Int) : Nat × Nat :=
  match e with
  | .ofNat k => (n, d * Nat.pow b k)
  | .negSucc k => (n * Nat.pow b (k + 1), d)

/-- The quotient of two numbers rounded to the nearest whole one, of two the even one. -/
def roundEven (n d : Nat) : Nat :=
  let q := n / d
  let r := n % d
  if 2 * r < d then q
  else if d < 2 * r then q + 1
  else if q % 2 = 0 then q else q + 1

/-- The exponent of the binary number nearest to `n / d`, as far as the format has it: the mantissa
gets 53 digits, or fewer with the least exponent. -/
def exponentOf (n d : Nat) : Int :=
  let guess : Int := (Nat.log2 n : Int) - (Nat.log2 d : Int)
  let (a, b) := scale n d 2 guess
  let top := if a < b then guess - 1 else guess
  max (top - 52) minExponent

/-- The number of the format nearest to `± n / d`. -/
def ofRatio (negative : Bool) (n d : Nat) : Binary64 :=
  let q := exponentOf n d
  let (a, b) := scale n d 2 q
  let m := roundEven a b
  let (m, q) := if m = 2 * minMantissa then (minMantissa, q + 1) else (m, q)
  if q > maxExponent then .infinity negative else .finite negative m q

/-- The number of decimal digits of `n`; none for zero. -/
def digitCount (n : Nat) : Nat :=
  if n = 0 then 0 else (Nat.toDigits 10 n).length

/-- The number of the format nearest to `± n · 10 ^ e`. Beyond the exponents of the format it is an
infinity or zero. -/
def ofDecimal (negative : Bool) (n : Nat) (e : Int) : Binary64 :=
  let top := e + digitCount n
  if n = 0 ∨ top < -400 then .finite negative 0 minExponent
  else if top > 400 then .infinity negative
  else
    let (a, b) := scale n 1 10 (-e)
    ofRatio negative a b

end Binary64

end RenderTree

namespace RenderTree.Decimal

open RenderTree

/-- The numbers that are read as `m · 2 ^ q`, as multiples of `2 ^ (q - 2)`: from `low` to `high`,
ends included if `closed`. -/
structure Interval where
  low : Nat
  high : Nat
  closed : Bool
deriving Repr

/-- The interval around `m · 2 ^ q`. Below a power of two the neighbour is nearer than above. -/
def interval (m : Nat) (q : Int) : Interval :=
  { low := if m = Binary64.minMantissa ∧ q ≠ Binary64.minExponent then 4 * m - 1 else 4 * m - 2
    high := 4 * m + 2
    closed := m % 2 == 0 }

/-- Whether the interval holds `n / d`. -/
def Interval.holds (i : Interval) (n d : Nat) : Bool :=
  if i.closed then i.low * d ≤ n && n ≤ i.high * d
  else i.low * d < n && n < i.high * d

/-- The point nearest to `4 m` of those on the grid of the multiples of `n / d` that the interval
holds, where `n / d` is in its unit; only the two around `4 m` come into question. -/
def gridPoint? (i : Interval) (m n d : Nat) : Option Nat :=
  let below := 4 * m * d / n
  let above := below + 1
  match i.holds (below * n) d, i.holds (above * n) d with
  | true, true => some (if 4 * m * d - below * n ≤ above * n - 4 * m * d then below else above)
  | true, false => some below
  | false, true => some above
  | false, false => none

/-- The exponent `p` with `10 ^ (p - 1) ≤ a / b < 10 ^ p`, searched upwards from `p` and at most
`fuel` steps. -/
def magnitudeFrom (a b : Nat) : Nat → Int → Int
  | 0, p => p
  | fuel + 1, p =>
    let (x, y) := Binary64.scale a b 10 p
    if x < y then p else magnitudeFrom a b fuel (p + 1)

/-- The exponent `p` with `10 ^ (p - 1) ≤ a / b < 10 ^ p`. -/
def magnitude (a b : Nat) : Int :=
  magnitudeFrom a b 700 (-330)

/-- The least grid on which the interval has a point, out of `fuel` grids, each ten times finer than
the one before; the first consists of the multiples of `10 ^ e`. -/
def firstGrid (i : Interval) (m : Nat) (q : Int) : Nat → Int → Nat × Int
  | 0, e => (0, e)
  | fuel + 1, e =>
    let (a, b) := Binary64.scale 4 1 2 q
    let (n, d) := Binary64.scale a b 10 (-e)
    match gridPoint? i m n d with
    | some point => (point, e)
    | none => firstGrid i m q fuel (e - 1)

/-- The digits and the exponent of the shortest decimal that is read as `m · 2 ^ q`. -/
def shortest (m : Nat) (q : Int) : List Char × Int :=
  let (a, b) := Binary64.scale m 1 2 (-q)
  let (point, e) := firstGrid (interval m q) m q 18 (magnitude a b - 1)
  let digits := Nat.toDigits 10 point
  let kept := (digits.reverse.dropWhile (· == '0')).reverse
  (kept, e + (digits.length - kept.length : Nat))

/-! ### Layout -/

/-- How digits are laid out. A number is written with a point and no exponent if the exponent of its
first digit is at least `least` and below `limit`. -/
structure DecimalFormat where
  least : Int
  limit : Int
  mark : Char
  exponentWidth : Nat
  notANumber : String
  infinity : String

/-- Digits filled up with zeros on the left. -/
def padded (width : Nat) (cs : List Char) : List Char :=
  List.replicate (width - cs.length) '0' ++ cs

/-- The digits `cs`, of which the last has exponent `e`, with a point and no exponent. There is a
digit on each side of the point. -/
def positional (cs : List Char) (e : Int) : List Char :=
  match e with
  | .ofNat k => cs ++ List.replicate k '0' ++ ['.', '0']
  | .negSucc k =>
    let filled := padded (k + 2) cs
    filled.take (filled.length - (k + 1)) ++ '.' :: filled.drop (filled.length - (k + 1))

/-- The digits `cs` with a point behind the first, if there are more, and the exponent `top`. -/
def scientific (f : DecimalFormat) (cs : List Char) (top : Int) : List Char :=
  let fraction := if cs.length ≤ 1 then [] else '.' :: cs.drop 1
  let sign := if top < 0 then '-' else '+'
  cs.take 1 ++ fraction ++ f.mark :: sign :: padded f.exponentWidth (Nat.toDigits 10 top.natAbs)

/-- The text of a number. -/
def DecimalFormat.write (f : DecimalFormat) : Binary64 → String
  | .notANumber => f.notANumber
  | .infinity negative => (if negative then "-" else "") ++ f.infinity
  | .finite negative m q =>
    let (digits, e) := if m = 0 then (['0'], 0) else shortest m q
    let top := e + (digits.length : Int) - 1
    let text := if f.least ≤ top ∧ top < f.limit then positional digits e else scientific f digits top
    (if negative then "-" else "") ++ String.ofList text

end RenderTree.Decimal
