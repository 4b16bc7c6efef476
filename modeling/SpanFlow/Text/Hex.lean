namespace SpanFlow.Hex

def digit (n : Nat) : Char :=
  if n < 10 then Char.ofNat (48 + n) else Char.ofNat (87 + n)

def capital (n : Nat) : Char :=
  if n < 10 then Char.ofNat (48 + n) else Char.ofNat (55 + n)

/-- The last `width` digits of `n`, the most significant first. -/
def fixed : Nat → Nat → List Char
  | 0, _ => []
  | width + 1, n => fixed width (n / 16) ++ [digit (n % 16)]

def lowerDigit? (c : Char) : Option Nat :=
  if '0' ≤ c ∧ c ≤ '9' then some (c.toNat - 48)
  else if 'a' ≤ c ∧ c ≤ 'f' then some (c.toNat - 87)
  else none

def digit? (c : Char) : Option Nat :=
  if 'A' ≤ c ∧ c ≤ 'F' then some (c.toNat - 55) else lowerDigit? c

def value? (read : Char → Option Nat) (cs : List Char) : Option Nat :=
  cs.foldlM (fun acc c => (read c).map (acc * 16 + ·)) 0

/-- A number of at most `width` digits in either case, and not zero. -/
def bounded? (width : Nat) (s : String) : Option Nat :=
  let cs := s.toList
  if cs.isEmpty ∨ width < cs.length then none
  else (value? digit? cs).filter (· ≠ 0)

def ofWidth? (width : Nat) (cs : List Char) : Option Nat :=
  if cs.length = width then value? lowerDigit? cs else none

def text (width n : Nat) : String :=
  String.ofList (fixed width n)

def bytes? : List Char → Option (List UInt8)
  | [] => some []
  | [_] => none
  | a :: b :: r => do
    let hi ← digit? a
    let lo ← digit? b
    return UInt8.ofNat (hi * 16 + lo) :: (← bytes? r)

def ofBytes (bs : List UInt8) : String :=
  String.ofList (bs.flatMap fun b => fixed 2 b.toNat)

@[simp] theorem length_fixed (width n : Nat) : (fixed width n).length = width := by
  induction width generalizing n with
  | zero => rfl
  | succ w ih => simp [fixed, ih]

end SpanFlow.Hex
