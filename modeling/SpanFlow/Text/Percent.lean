import SpanFlow.Text.Hex
import SpanFlow.Text.Utf8

namespace SpanFlow.Percent

/-- The visible characters that may not stand for themselves. -/
def reserved : List Char := [' ', '"', ',', ';', '=', '\\', '%']

def isPlain (c : Char) : Bool :=
  0x20 ≤ c.toNat && c.toNat < 0x7F && !reserved.contains c

def escapeByte (b : UInt8) : List Char :=
  ['%', Hex.capital (b.toNat / 16), Hex.capital (b.toNat % 16)]

def encode (cs : List Char) : List Char :=
  cs.flatMap fun c => if isPlain c then [c] else (String.utf8EncodeChar c).flatMap escapeByte

def pair? (a b : Char) : Option UInt8 := do
  return UInt8.ofNat ((← Hex.digit? a) * 16 + (← Hex.digit? b))

/-- The bytes of an encoded text. A percent sign without two digits after it stands for itself. -/
def bytes : List Char → List UInt8
  | [] => []
  | '%' :: a :: b :: r =>
    match pair? a b with
    | some byte => byte :: bytes r
    | none => String.utf8EncodeChar '%' ++ bytes (a :: b :: r)
  | c :: r => String.utf8EncodeChar c ++ bytes r

/-- The text that an encoded text stands for; none if its bytes are not UTF-8. -/
def decode? (cs : List Char) : Option (List Char) :=
  Utf8.decode? (bytes cs)

end SpanFlow.Percent
