import SpanFlow.Decimal.Shortest

namespace SpanFlow.Json

structure Power where
  sign : Option Bool
  digits : List (Fin 10)
  deriving DecidableEq

structure Numeral where
  negative : Bool
  whole : List (Fin 10)
  fraction : List (Fin 10)
  power : Option Power
  deriving DecidableEq

namespace Numeral

def ofInt (i : Int) : Numeral :=
  ⟨i < 0, Decimal.digitsOf i.natAbs, [], none⟩

def isWhole (n : Numeral) : Bool :=
  n.fraction.isEmpty && n.power.isNone

/-- The integer of a whole numeral. There is no negative zero among them. -/
def int? (n : Numeral) : Option Int :=
  let value := Decimal.ofDigits n.whole
  if !n.isWhole then none
  else if n.negative then (if value = 0 then none else some (-(value : Int)))
  else some value

def below? (bound : Nat) (n : Numeral) : Option Nat :=
  if n.isWhole && !n.negative && Decimal.ofDigits n.whole < bound then some (Decimal.ofDigits n.whole)
  else none

/-- Takes digits into a significand as long as it stays below `2 ^ 64`; the rest is left over. -/
def absorb (acc : Nat) : List (Fin 10) → Nat × List (Fin 10)
  | [] => (acc, [])
  | d :: r => if acc * 10 + d.val < Nat.pow 2 64 then absorb (acc * 10 + d.val) r else (acc, d :: r)

def tenTo (k : Nat) : Double :=
  Double.round (Nat.pow 10 k) 1

/-- Multiplies by a power of ten in one rounded step, or in several if its exponent is beyond 308.
None if the result is too large. -/
def scale (x : Double) (e : Int) : Option Double :=
  if e.natAbs ≤ 308 then
    if 0 ≤ e then
      let y := x.mul (tenTo e.natAbs)
      if y.isInfinite then none else some y
    else some (x.div (tenTo e.natAbs))
  else if x.isZero then some x
  else if h : 0 ≤ e then none
  else scale (x.div (tenTo 308)) (e + 308)
termination_by e.natAbs
decreasing_by omega

def greatestPower : Nat := Nat.pow 2 31 - 1

/-- The floating-point number of a numeral: the leading digits that fit in 64 bits, rounded, times
the power of ten they stand at. None if it is too large. -/
def toDouble? (n : Numeral) : Option Double :=
  let (high, left) := absorb 0 n.whole
  let (significand, dropped) := absorb high n.fraction
  let place : Int := left.length - ((n.fraction.length - dropped.length : Nat) : Int)
  let start := Double.round significand 1
  let unsigned : Option Double :=
    match n.power with
    | none => scale start place
    | some p =>
      let k := Decimal.ofDigits p.digits
      let minus := p.sign == some true
      if greatestPower < k then
        if significand ≠ 0 ∧ !minus then none else some Double.zero
      else scale start (if minus then place - k else place + k)
  unsigned.map fun x => Double.ofMagnitude n.negative x.magnitude

/-- How documents show floating-point numbers: the powers of ten of the first digit that are
written without one, and the choice between digits that are equally near. -/
structure Layout where
  least : Int
  greatest : Int
  tie : Decimal.Tie

/-- From a hundred-thousandth up to below ten to the sixteenth, a number is written without a
power of ten. Ties go to the even digit. -/
def layout : Layout := ⟨-5, 15, .toEven⟩

/-- A finite number in shortest digits. A point or a power is always there, so that it reads back
as a floating-point number. -/
def ofDouble (x : Double) : Numeral :=
  let s := Decimal.shortest layout.tie x
  let ds := Decimal.digitsOf s.digits
  let top : Int := s.exponent + (ds.length - 1 : Nat)
  if layout.least ≤ top ∧ top ≤ layout.greatest then
    let (whole, fraction) := Decimal.positional s
    ⟨x.isNegative, whole, if fraction.isEmpty then [Decimal.zeroDigit] else fraction, none⟩
  else
    ⟨x.isNegative, ds.take 1, ds.drop 1, some ⟨some (decide (top < 0)), Decimal.digitsOf top.natAbs⟩⟩

def render (n : Numeral) : List Char :=
  (if n.negative then ['-'] else []) ++ n.whole.map Decimal.digitChar ++
  (if n.fraction.isEmpty then [] else '.' :: n.fraction.map Decimal.digitChar) ++
  match n.power with
  | none => []
  | some p =>
    'e' :: ((match p.sign with
      | none => []
      | some true => ['-']
      | some false => ['+']) ++ p.digits.map Decimal.digitChar)

def digits : List Char → List (Fin 10) × List Char
  | [] => ([], [])
  | c :: r =>
    match Decimal.digit? c with
    | some d => let (ds, rest) := digits r; (d :: ds, rest)
    | none => ([], c :: r)

def readFraction : List Char → Option (List (Fin 10) × List Char)
  | '.' :: r =>
    let (ds, rest) := digits r
    if ds.isEmpty then none else some (ds, rest)
  | cs => some ([], cs)

def readPowerDigits (sign : Option Bool) (cs : List Char) : Option (Option Power × List Char) :=
  let (ds, rest) := digits cs
  if ds.isEmpty then none else some (some ⟨sign, ds⟩, rest)

def readPower : List Char → Option (Option Power × List Char)
  | [] => some (none, [])
  | c :: r =>
    if c = 'e' ∨ c = 'E' then
      match r with
      | '+' :: r => readPowerDigits (some false) r
      | '-' :: r => readPowerDigits (some true) r
      | r => readPowerDigits none r
    else some (none, c :: r)

def readUnsigned (negative : Bool) (cs : List Char) : Option (Numeral × List Char) := do
  let (whole, rest) := digits cs
  if whole.isEmpty ∨ (whole.head? = some Decimal.zeroDigit ∧ whole.length ≠ 1) then none
  else
    let (fraction, rest) ← readFraction rest
    let (power, rest) ← readPower rest
    return (⟨negative, whole, fraction, power⟩, rest)

def read : List Char → Option (Numeral × List Char)
  | '-' :: r => readUnsigned true r
  | cs => readUnsigned false cs

end Numeral

end SpanFlow.Json
