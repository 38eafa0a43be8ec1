/-!
# Numbers in binary64

A number is held as a sign, a whole mantissa and a power of two, so that reading a decimal and
writing it back are computations on natural numbers.

Reading rounds to the nearest representable number, ties to the even mantissa. Writing gives the
fewest decimal digits that read back as the same number, the nearest such decimal first; positional
from `1e-4` up to below `1e16`, with `.0` after a whole number, and with an exponent of at least two
digits outside that range.
-/

namespace HostDecl

/-- A binary64 number. -/
inductive Binary64 where
  /-- The number `± mantissa · 2 ^ exponent`, with `mantissa < 2 ^ 53` and
  `-1074 ≤ exponent ≤ 971`; zero has mantissa `0`. -/
  | finite (negative : Bool) (mantissa : Nat) (exponent : Int)
  /-- An infinity. -/
  | infinite (negative : Bool)
  /-- Not a number. -/
  | nan
  deriving DecidableEq, Repr

namespace Binary64

/-- The number of decimal digits of a natural number. -/
def digitCount (n : Nat) : Nat := (Nat.toDigits 10 n).length

/-- The quotient `a / b` rounded to the nearest, a tie to the even one. -/
def roundDiv (a b : Nat) : Nat :=
  let q := a / b
  let r := a % b
  if 2 * r < b then q else if b < 2 * r then q + 1 else if q % 2 = 0 then q else q + 1

/-- The fraction `n · base ^ k`. -/
def scaled (base n : Nat) (k : Int) : Nat × Nat :=
  if 0 ≤ k then (n * Nat.pow base k.toNat, 1) else (n, Nat.pow base (-k).toNat)

/-- The power of two that gives a fraction a mantissa of 53 bits, or the least one there is. -/
def mantissaExponent (num den : Nat) : Int :=
  let low : Int := max ((num.log2 : Int) - den.log2 - 53) (-1074)
  let (n, d) := scaled 2 den low
  if num * d / n < Nat.pow 2 53 then low else low + 1

/-- The number nearest to a positive fraction. -/
def ofFraction (negative : Bool) (num den : Nat) : Binary64 :=
  let e := mantissaExponent num den
  let (n, d) := scaled 2 den e
  let m := roundDiv (num * d) n
  let (m, e) := if m = Nat.pow 2 53 then (Nat.pow 2 52, e + 1) else (m, e)
  if 971 < e then .infinite negative
  else if m = 0 then .finite negative 0 (-1074)
  else .finite negative m e

/-- The number nearest to `± digits · 10 ^ exponent`. Powers far outside the range are decided by the
number of digits alone. -/
def ofDecimal (negative : Bool) (digits : Nat) (exponent : Int) : Binary64 :=
  if digits = 0 then .finite negative 0 (-1074)
  else
    let top := (digitCount digits : Int) + exponent
    if 400 < top then .infinite negative
    else if top < -400 then .finite negative 0 (-1074)
    else
      let (num, den) := scaled 10 digits exponent
      ofFraction negative num den

/-- The whole number that a number is, if it is one. -/
def toInt? : Binary64 → Option Int
  | .finite negative m e =>
    let signed (n : Nat) : Int := if negative then -(n : Int) else n
    if 0 ≤ e then some (signed (m * Nat.pow 2 e.toNat))
    else
      let unit := Nat.pow 2 (-e).toNat
      if m % unit = 0 then some (signed (m / unit)) else none
  | _ => none

/-! ## Shortest decimals -/

/-- The decimals that read back as a number: those between two fractions over one denominator, the
bounds included or not. -/
structure Interval where
  /-- The lower bound, over `den`. -/
  low : Nat
  /-- The number itself, over `den`. -/
  value : Nat
  /-- The upper bound, over `den`. -/
  high : Nat
  /-- The denominator. -/
  den : Nat
  /-- Whether the bounds read back too. -/
  closed : Bool

/-- The interval of `mantissa · 2 ^ exponent`: halfway to its neighbours, of which the lower one is
nearer below a power of two. -/
def interval (m : Nat) (e : Int) : Interval :=
  let below := if m = Nat.pow 2 52 && decide (-1074 < e) then 1 else 2
  let (unit, den) := scaled 2 1 (e - 2)
  ⟨(4 * m - below) * unit, 4 * m * unit, (4 * m + 2) * unit, den, m % 2 == 0⟩

/-- Whether `d · 10 ^ k` lies in an interval. -/
def Interval.holds (i : Interval) (d : Nat) (k : Int) : Bool :=
  let (n, s) := scaled 10 d k
  if i.closed then decide (i.low * s ≤ n * i.den) && decide (n * i.den ≤ i.high * s)
  else decide (i.low * s < n * i.den) && decide (n * i.den < i.high * s)

/-- The power of ten of the first digit of a positive fraction. -/
def leadingPower (num den : Nat) : Int :=
  if den ≤ num then (digitCount (num / den) : Int) - 1
  else
    let k := digitCount (den / num)
    if den ≤ num * Nat.pow 10 (k - 1) then -((k - 1 : Nat) : Int) else -(k : Int)

/-- The decimals `d · 10 ^ k` next to the number on the grid of `10 ^ k`, the nearer one first if
both read back. -/
def Interval.onGrid (i : Interval) (k : Int) : Option Nat :=
  let (n, s) := scaled 10 1 k
  let unit := n * i.den
  let down := i.value * s / unit
  let rest := i.value * s % unit
  match i.holds down k, i.holds (down + 1) k with
  | true, true =>
    if 2 * rest < unit then some down
    else if unit < 2 * rest then some (down + 1)
    else some (if down % 2 = 0 then down else down + 1)
  | true, false => some down
  | false, true => some (down + 1)
  | false, false => none

/-- The first grid with a hit, from the coarsest on: the digits and the power of ten of the last
one. -/
def Interval.search (i : Interval) (top : Int) : Nat → Nat → Nat × Int
  | 0, _ => (0, 0)
  | fuel + 1, places =>
    let k := top - (places : Int) + 1
    match i.onGrid k with
    | some d => (d, k)
    | none => i.search top fuel (places + 1)

/-- The fewest digits that read back as `mantissa · 2 ^ exponent`, and the power of ten of the last
one. Seventeen digits are always enough. -/
def shortest (m : Nat) (e : Int) : Nat × Int :=
  let i := interval m e
  i.search (leadingPower i.value i.den) 17 1

/-- Drops the zeros at the end of a list of digits. -/
def dropZeros (digits : List Char) : List Char :=
  (digits.reverse.dropWhile (· == '0')).reverse

/-- At least two digits. -/
def twoDigits (n : Nat) : String := if n < 10 then "0" ++ toString n else toString n

/-- Digits `d₁d₂…` with the point after the first `point` of them, zeros filled in. -/
def positional (digits : List Char) (point : Int) : List Char :=
  if point ≤ 0 then '0' :: '.' :: (List.replicate (-point).toNat '0' ++ digits)
  else
    let n := point.toNat
    if digits.length ≤ n then
      digits ++ List.replicate (n - digits.length) '0' ++ ['.', '0']
    else digits.take n ++ '.' :: digits.drop n

/-- Digits with the point after the first one and an exponent. -/
def scientific (digits : List Char) (power : Int) : List Char :=
  let fraction := match digits.tail with
    | [] => []
    | rest => '.' :: rest
  let sign := if power < 0 then '-' else '+'
  digits.take 1 ++ fraction ++ 'e' :: sign :: (twoDigits power.natAbs).toList

/-- The text of a number. -/
def text : Binary64 → String
  | .nan => "nan"
  | .infinite negative => if negative then "-inf" else "inf"
  | .finite negative m e =>
    let sign := if negative then ['-'] else []
    if m = 0 then String.ofList (sign ++ ['0', '.', '0'])
    else
      let (d, k) := shortest m e
      let all := Nat.toDigits 10 d
      let power := k + all.length - 1
      let digits := dropZeros all
      let body :=
        if -4 ≤ power && power < 16 then positional digits (power + 1)
        else scientific digits power
      String.ofList (sign ++ body)

end Binary64

end HostDecl
