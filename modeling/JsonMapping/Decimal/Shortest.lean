import JsonMapping.Decimal.Double

/-! The shortest decimal that reads back as a given double, and its text. All arithmetic is exact:
a magnitude is a quotient of two naturals, and the reals that round to the double are an interval
around it. -/

namespace JsonMapping.Decimal

/-- The decimal `digits * 10 ^ exponent`. -/
structure Scientific where
  digits : Nat
  exponent : Int
deriving DecidableEq

/-- The reals between two quotients of one denominator, with or without the ends. -/
structure Interval where
  low : Nat
  value : Nat
  high : Nat
  den : Nat
  closed : Bool

/-- The reals that round to `m * 2 ^ q`. Below a power of two the next double is half as far away.
An even significand wins the ties at both ends. -/
def Interval.ofScaled (m : Nat) (q : Int) (narrow : Bool) : Interval :=
  let low := if narrow then 4 * m - 1 else 4 * m - 2
  let up := (q - 2).toNat
  let down := (2 - q).toNat
  let scale := Nat.pow 2 up
  { low := low * scale, value := 4 * m * scale, high := (4 * m + 2) * scale
    den := Nat.pow 2 down, closed := m % 2 == 0 }

/-- Whether `n / d` lies in the interval. -/
def Interval.contains (i : Interval) (n d : Nat) : Bool :=
  if i.closed then i.low * d ≤ n * i.den && n * i.den ≤ i.high * d
  else i.low * d < n * i.den && n * i.den < i.high * d

/-- The multiple of `10 ^ k` in the interval that is nearest to its value; of two that are as near,
the even one. -/
def nearestOnGrid (i : Interval) (k : Int) : Option Nat :=
  let up := Nat.pow 10 k.toNat
  let down := Nat.pow 10 (-k).toNat
  let below := i.value * down / (i.den * up)
  let above := below + 1
  match i.contains (below * up) down && below != 0, i.contains (above * up) down with
  | false, false => none
  | true, false => some below
  | false, true => some above
  | true, true =>
    let toBelow := i.value * down - below * up * i.den
    let toAbove := above * up * i.den - i.value * down
    if toBelow < toAbove || (toBelow == toAbove && below % 2 == 0) then some below else some above

/-- The first hit on ever finer grids, starting from `10 ^ k`. -/
def firstHit (i : Interval) : Nat → Int → Option Scientific
  | 0, _ => none
  | tries + 1, k =>
    match nearestOnGrid i k with
    | some n => some ⟨n, k⟩
    | none => firstHit i tries (k - 1)

/-- The exponent of the first digit of `n / d`, for a quotient above `10 ^ -400`. -/
def leadingExponent (n d : Nat) : Int :=
  ((Nat.toDigits 10 (n * Nat.pow 10 400 / d)).length : Int) - 401

/-- Digits without their closing zeros. -/
def Scientific.normalize (s : Scientific) : Scientific :=
  let rec strip : Nat → Nat → Int → Scientific
    | 0, n, e => ⟨n, e⟩
    | fuel + 1, n, e => if n % 10 = 0 ∧ n ≠ 0 then strip fuel (n / 10) (e + 1) else ⟨n, e⟩
  strip s.digits s.digits s.exponent

/-- The fewest digits that read back as the magnitude of a finite double; of those the nearest. -/
def shortest (d : Double) : Scientific :=
  let (m, q) := d.scaled
  if m = 0 then ⟨0, 0⟩
  else
    let i := Interval.ofScaled m q (d.fraction == 0 && 1 < d.exponentField)
    match firstHit i 18 (leadingExponent i.value i.den) with
    | some s => s.normalize
    | none => ⟨m, q⟩

/-! ## Text -/

private def zeros (n : Nat) : List Char := List.replicate n '0'

/-- A decimal with digits on both sides of the point. -/
def positional (digits : List Char) (leading : Int) : List Char :=
  match leading with
  | .negSucc n => '0' :: '.' :: zeros n ++ digits
  | .ofNat n =>
    let whole := digits.take (n + 1)
    let part := digits.drop (n + 1)
    whole ++ zeros (n + 1 - whole.length) ++ '.' :: (if part.isEmpty then ['0'] else part)

/-- A decimal with one digit in front of the point and an exponent with its sign. -/
def exponential (digits : List Char) (leading : Int) : List Char :=
  let part := digits.drop 1
  digits.take 1 ++ (if part.isEmpty then [] else '.' :: part) ++ 'e' ::
    (if leading < 0 then '-' else '+') :: Nat.toDigits 10 leading.natAbs

/-- A finite double: with digits on both sides of the point from `10 ^ -5` up to `10 ^ 16`, outside
with an exponent. -/
def chars (d : Double) : List Char :=
  let s := shortest d
  let digits := Nat.toDigits 10 s.digits
  let leading := s.exponent + digits.length - 1
  let body :=
    if -5 ≤ leading ∧ leading ≤ 15 then positional digits leading else exponential digits leading
  if d.isNegative then '-' :: body else body

end JsonMapping.Decimal
