/-! Double precision numbers by their 64 bits, and their reading from decimal digits. -/

namespace JsonMapping

structure Double where
  bits : UInt64
deriving DecidableEq

namespace Double

def ofFloat (x : Float) : Double := ⟨x.toBits⟩

def isNegative (d : Double) : Bool := d.bits >>> 63 == 1

def exponentField (d : Double) : Nat := ((d.bits >>> 52) &&& 0x7FF).toNat

def fraction (d : Double) : Nat := (d.bits &&& 0xFFFFFFFFFFFFF).toNat

def isFinite (d : Double) : Bool := d.exponentField < 0x7FF

/-- The magnitude of a finite double as `(m, q)`, meaning `m * 2 ^ q`. -/
def scaled (d : Double) : Nat × Int :=
  if d.exponentField = 0 then (d.fraction, -1074)
  else (d.fraction + 4503599627370496, (d.exponentField : Int) - 1075)

/-- The largest power of ten that scales in one step. -/
private def widestPower : Nat := 308

private def powerOfTen (n : Nat) : Float := Float.ofScientific 1 false n

/-- `x` divided by `10 ^ n`, in steps of at most the widest power. -/
private def scaleDown (x : Float) (n : Nat) : Float :=
  if n ≤ widestPower then x / powerOfTen n
  else if x == 0.0 then x
  else scaleDown (x / powerOfTen widestPower) (n - widestPower)
termination_by n
decreasing_by simp only [widestPower] at *; omega

/-- The value of `significand * 10 ^ exponent`: the significand is rounded to a double and then
scaled by rounded powers of ten. Nothing is read where the result would be infinite. -/
def ofDecimal? (negative : Bool) (significand : Nat) (exponent : Int) : Option Double :=
  let x := Float.ofNat significand
  let signed (y : Float) := ofFloat (if negative then -y else y)
  match exponent with
  | .negSucc n => some (signed (scaleDown x (n + 1)))
  | .ofNat n =>
    if significand = 0 then some (signed x)
    else if widestPower < n then none
    else
      let y := x * powerOfTen n
      if y.isInf then none else some (signed y)

/-- A fraction as a natural number; a half goes to the even neighbour. -/
private def rounded (numerator denominator : Nat) : Nat :=
  let whole := numerator / denominator
  let twice := 2 * (numerator % denominator)
  if denominator < twice || (denominator == twice && whole % 2 == 1) then whole + 1 else whole

/-- A fraction divided by `2 ^ q`. -/
private def shifted (numerator denominator : Nat) (q : Int) : Nat × Nat :=
  match q with
  | .ofNat n => (numerator, denominator * Nat.pow 2 n)
  | .negSucc n => (numerator * Nat.pow 2 (n + 1), denominator)

/-- The bits of the finite double nearest to a positive fraction, a half going to the even one;
none where only infinity is as near. -/
private def nearestBits? (numerator denominator : Nat) : Option Nat :=
  let q : Int := (Nat.log2 numerator : Int) - Nat.log2 denominator - 53
  let (n, d) := shifted numerator denominator q
  let q := max (if n / d < 9007199254740992 then q else q + 1) (-1074)
  let (n, d) := shifted numerator denominator q
  let bits := (q + 1074).toNat * 4503599627370496 + rounded n d
  if bits < 0x7FF * 4503599627370496 then some bits else none

/-- A power of ten past which every number is infinite, or too small to tell from zero. -/
private def farthestPower : Int := 400

/-- The double nearest to `significand * 10 ^ exponent`. -/
def nearest? (negative : Bool) (significand : Nat) (exponent : Int) : Option Double :=
  let signed (bits : Nat) : Double :=
    ⟨.ofNat (if negative then bits + 9223372036854775808 else bits)⟩
  if significand = 0 ∨ exponent + Nat.log2 significand / 3 + 1 < -farthestPower then
    some (signed 0)
  else if farthestPower < exponent then none
  else match exponent with
    | .ofNat n => (nearestBits? (significand * Nat.pow 10 n) 1).map signed
    | .negSucc n => (nearestBits? significand (Nat.pow 10 (n + 1))).map signed

end Double

end JsonMapping
