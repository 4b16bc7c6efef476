/-!
Bytes read as UTF-8. Reading cuts a sequence into pieces, each a character or a longest run that
no character starts with; a strict reader refuses the second sort, a forgiving one shows U+FFFD.
-/

namespace SpanFlow.Utf8

def encode (cs : List Char) : List UInt8 :=
  cs.flatMap String.utf8EncodeChar

def isTail (b : UInt8) : Bool :=
  0x80 ≤ b && b ≤ 0xBF

def isSecondOfThree (a b : UInt8) : Bool :=
  if a = 0xE0 then 0xA0 ≤ b && b ≤ 0xBF
  else if a = 0xED then 0x80 ≤ b && b ≤ 0x9F
  else isTail b

def isSecondOfFour (a b : UInt8) : Bool :=
  if a = 0xF0 then 0x90 ≤ b && b ≤ 0xBF
  else if a = 0xF4 then 0x80 ≤ b && b ≤ 0x8F
  else isTail b

def join (groups : List Nat) : Char :=
  Char.ofNat (groups.foldl (fun acc g => acc * 64 + g) 0)

def low (b : UInt8) : Nat :=
  b.toNat % 64

/-- The pieces of a byte sequence: its characters, and `none` for each longest ill-formed run. -/
def pieces : List UInt8 → List (Option Char)
  | [] => []
  | a :: r =>
    if a < 0x80 then some (Char.ofNat a.toNat) :: pieces r
    else if 0xC2 ≤ a && a ≤ 0xDF then
      match r with
      | b :: r₁ => if isTail b then some (join [a.toNat % 32, low b]) :: pieces r₁ else none :: pieces (b :: r₁)
      | [] => [none]
    else if 0xE0 ≤ a && a ≤ 0xEF then
      match r with
      | b :: r₁ =>
        if isSecondOfThree a b then
          match r₁ with
          | c :: r₂ =>
            if isTail c then some (join [a.toNat % 16, low b, low c]) :: pieces r₂
            else none :: pieces (c :: r₂)
          | [] => [none]
        else none :: pieces (b :: r₁)
      | [] => [none]
    else if 0xF0 ≤ a && a ≤ 0xF4 then
      match r with
      | b :: r₁ =>
        if isSecondOfFour a b then
          match r₁ with
          | c :: r₂ =>
            if isTail c then
              match r₂ with
              | d :: r₃ =>
                if isTail d then some (join [a.toNat % 8, low b, low c, low d]) :: pieces r₃
                else none :: pieces (d :: r₃)
              | [] => [none]
            else none :: pieces (c :: r₂)
          | [] => [none]
        else none :: pieces (b :: r₁)
      | [] => [none]
    else none :: pieces r
termination_by l => l.length

def decode? (bs : List UInt8) : Option (List Char) :=
  (pieces bs).mapM id

/-- The text of any sequence, with U+FFFD for each ill-formed run. -/
def decodeLossy (bs : List UInt8) : List Char :=
  (pieces bs).map (·.getD '\uFFFD')

end SpanFlow.Utf8
