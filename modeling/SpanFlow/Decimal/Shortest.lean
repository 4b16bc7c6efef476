import SpanFlow.Decimal.Double

/-!
The shortest decimal digits of a floating-point number: the fewest digits that read back as the
number, and of those the nearest to it. Where two of them are equally near, a rule chooses.
-/

namespace SpanFlow.Decimal

def digitsOf (n : Nat) : List (Fin 10) :=
  if n < 10 then [Fin.ofNat 10 n] else digitsOf (n / 10) ++ [Fin.ofNat 10 n]
termination_by n

def ofDigits (ds : List (Fin 10)) : Nat :=
  ds.foldl (fun acc d => acc * 10 + d.val) 0

def digitChar (d : Fin 10) : Char :=
  Char.ofNat (48 + d.val)

def zeroDigit : Fin 10 := ⟨0, by decide⟩

def digit? (c : Char) : Option (Fin 10) :=
  if '0' ≤ c ∧ c ≤ '9' then some (Fin.ofNat 10 (c.toNat - 48)) else none

def natText (n : Nat) : String :=
  String.ofList ((digitsOf n).map digitChar)

def intText (i : Int) : String :=
  if i < 0 then "-" ++ natText i.natAbs else natText i.natAbs

def int? (s : String) : Option Int :=
  let digits (cs : List Char) : Option Nat :=
    if cs.isEmpty then none else (cs.mapM digit?).map ofDigits
  match s.toList with
  | '-' :: r => (digits r).map fun n => -(n : Int)
  | '+' :: r => (digits r).map fun n => (n : Int)
  | cs => (digits cs).map fun n => (n : Int)

structure Scientific where
  digits : Nat
  exponent : Int
  deriving DecidableEq

def scaledByTen (num den : Nat) (k : Int) : Nat × Nat :=
  if k < 0 then (num * Nat.pow 10 k.natAbs, den) else (num, den * Nat.pow 10 k.natAbs)

def leadingExponent (num den : Nat) : Int :=
  let guess : Int := (digitsOf num).length - (digitsOf den).length
  let (n, d) := scaledByTen num den guess
  if n < d then guess - 1 else guess

/-- The reals that round to a number, in quarters of its last place: from `lo` to `hi` quarters,
the ends included when the significand is even. -/
structure Interval where
  lo : Nat
  hi : Nat
  closed : Bool

/-- The interval of a positive finite number. The gap below a power of two is half as wide. -/
def Interval.of (x : Double) : Interval :=
  let m := x.significand
  let narrow := m = Nat.pow 2 52 ∧ -1074 < x.exponent
  ⟨4 * m - (if narrow then 1 else 2), 4 * m + 2, m % 2 = 0⟩

/-- Whether the interval, scaled by `2 ^ q / 4`, holds the decimal `d * 10 ^ k`. -/
def Interval.holds (i : Interval) (q : Int) (d : Nat) (k : Int) : Bool :=
  let (n, unit) := if k < 0 then (d, Nat.pow 10 k.natAbs) else (d * Nat.pow 10 k.natAbs, 1)
  let (n, unit) := if q < 0 then (4 * n * Nat.pow 2 q.natAbs, unit) else (4 * n, unit * Nat.pow 2 q.natAbs)
  if i.closed then i.lo * unit ≤ n && n ≤ i.hi * unit else i.lo * unit < n && n < i.hi * unit

/-- What to take of two decimals that are equally near: the one whose last digit is even, or the
greater one. -/
inductive Tie where
  | toEven
  | upward
  deriving DecidableEq

def Tie.down (tie : Tie) (below : Nat) : Bool :=
  match tie with
  | .toEven => below % 2 = 0
  | .upward => false

/-- The best decimal with `count` digits that reads back as the number. -/
def candidate (tie : Tie) (x : Double) (num den : Nat) (top : Int) (count : Nat) : Option Scientific :=
  let k := top - count + 1
  let (n, d) := scaledByTen num den k
  let below := n / d
  let near := if 2 * (n % d) < d ∨ (2 * (n % d) = d ∧ tie.down below) then [below, below + 1] else [below + 1, below]
  let hits := near.filter fun c => (Interval.of x).holds x.exponent c k
  hits.head?.map fun c => ⟨c, k⟩

def strip (digits : Nat) (exponent : Int) : Nat → Scientific
  | 0 => ⟨digits, exponent⟩
  | fuel + 1 =>
    if digits ≠ 0 ∧ digits % 10 = 0 then strip (digits / 10) (exponent + 1) fuel
    else ⟨digits, exponent⟩

/-- The shortest decimal of the absolute value of a finite number. Seventeen digits suffice. -/
def shortest (tie : Tie) (x : Double) : Scientific :=
  if x.isZero then ⟨0, 0⟩
  else
    let (num, den) := x.quotient
    let top := leadingExponent num den
    let found := (List.range 17).findSome? fun i => candidate tie x num den top (i + 1)
    match found with
    | some s => strip s.digits s.exponent 18
    | none => ⟨num / den, 0⟩

def positional (s : Scientific) : List (Fin 10) × List (Fin 10) :=
  let ds := digitsOf s.digits
  if 0 ≤ s.exponent then (ds ++ List.replicate s.exponent.toNat zeroDigit, [])
  else
    let places := s.exponent.natAbs
    let padded := List.replicate (places + 1 - ds.length) zeroDigit ++ ds
    padded.splitAt (padded.length - places)

/-- The plain text of a number: shortest digits with ties upward, never a power of ten, `NaN`, `inf`. -/
def plainText (x : Double) : String :=
  if x.isNaN then "NaN"
  else
    let sign := if x.isNegative then "-" else ""
    if x.isInfinite then sign ++ "inf"
    else
      let (whole, fraction) := positional (shortest .upward x)
      let point := if fraction.isEmpty then [] else ['.']
      sign ++ String.ofList (whole.map digitChar ++ point ++ fraction.map digitChar)

end SpanFlow.Decimal
