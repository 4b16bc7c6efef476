namespace SpanFlow

/-- A floating-point number of 64 bits: sign, eleven bits of exponent, 52 bits of fraction. -/
structure Double where
  bits : BitVec 64
  deriving DecidableEq

namespace Double

instance : Inhabited Double := ⟨⟨0⟩⟩

def isNegative (x : Double) : Bool :=
  x.bits.msb

/-- The bits without the sign. The larger the number's absolute value, the larger they are. -/
def magnitude (x : Double) : Nat :=
  x.bits.toNat % Nat.pow 2 63

/-- The magnitude of the infinities. Every greater one is that of a NaN. -/
def infinite : Nat := 2047 * Nat.pow 2 52

def isNaN (x : Double) : Bool :=
  infinite < x.magnitude

def isInfinite (x : Double) : Bool :=
  x.magnitude == infinite

def isFinite (x : Double) : Bool :=
  x.magnitude < infinite

def isZero (x : Double) : Bool :=
  x.magnitude == 0

def ofMagnitude (negative : Bool) (magnitude : Nat) : Double :=
  ⟨BitVec.ofNat 64 (magnitude + if negative then Nat.pow 2 63 else 0)⟩

/-- The significand `m` of the absolute value `m * 2 ^ q`. -/
def significand (x : Double) : Nat :=
  let field := x.magnitude / Nat.pow 2 52
  let fraction := x.magnitude % Nat.pow 2 52
  if field = 0 then fraction else fraction + Nat.pow 2 52

def exponent (x : Double) : Int :=
  let field : Nat := x.magnitude / Nat.pow 2 52
  if field = 0 then -1074 else (field : Int) - 1075

def zero : Double := ⟨0⟩

def one : Double := ⟨0x3ff0000000000000⟩

def isBelowZero (x : Double) : Bool :=
  x.isNegative && !x.isZero && !x.isNaN

def isAboveOne (x : Double) : Bool :=
  !x.isNegative && !x.isNaN && one.magnitude < x.magnitude

/-- The number moved into the interval from zero to one, one standing in for NaN. -/
def clampUnit (x : Double) : Double :=
  if x.isNaN then one else if x.isBelowZero then zero else if x.isAboveOne then one else x

/-- A positive power of two as a quotient: numerator and denominator. -/
def scaled (num den : Nat) (q : Int) : Nat × Nat :=
  if q < 0 then (num * Nat.pow 2 q.natAbs, den) else (num, den * Nat.pow 2 q.natAbs)

def roundQuotient (num den : Nat) : Nat :=
  let d := num / den
  let twice := 2 * (num % den)
  if twice < den ∨ (twice = den ∧ d % 2 = 0) then d else d + 1

/-- The magnitude of the number nearest to the quotient of two positive naturals. -/
def roundMagnitude (num den : Nat) : Nat :=
  if num = 0 then 0
  else
    let guess : Int := (num.log2 : Int) - den.log2
    let (n, d) := scaled num den guess
    let top := if n < d then guess - 1 else guess
    let q := max (top - 52) (-1074)
    let (n, d) := scaled num den q
    min infinite ((q + 1074).toNat * Nat.pow 2 52 + roundQuotient n d)

def round (num den : Nat) : Double :=
  ofMagnitude false (roundMagnitude num den)

def quotient (x : Double) : Nat × Nat :=
  if x.exponent < 0 then (x.significand, Nat.pow 2 x.exponent.natAbs)
  else (x.significand * Nat.pow 2 x.exponent.natAbs, 1)

/-- The product of two absolute values, rounded. -/
def mul (x y : Double) : Double :=
  let (a, b) := x.quotient
  let (c, d) := y.quotient
  round (a * c) (b * d)

def div (x y : Double) : Double :=
  let (a, b) := x.quotient
  let (c, d) := y.quotient
  round (a * d) (b * c)

end Double

end SpanFlow
