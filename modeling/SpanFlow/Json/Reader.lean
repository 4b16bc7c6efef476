import SpanFlow.Json.Basic

namespace SpanFlow.Json

def isSpace (c : Char) : Bool :=
  c = ' ' || c = '\n' || c = '\t' || c = '\r'

def skip (cs : List Char) : List Char :=
  cs.dropWhile isSpace

def codeUnit? (a b c d : Char) : Option Nat :=
  Hex.value? Hex.digit? [a, b, c, d]

def simpleEscape? (c : Char) : Option Char :=
  if c = '"' ∨ c = '\\' ∨ c = '/' then some c
  else if c = 'b' then some '\x08'
  else if c = 'f' then some '\x0c'
  else if c = 'n' then some '\n'
  else if c = 'r' then some '\r'
  else if c = 't' then some '\t'
  else none

/-- The code points and escaped code units up to the closing quote, and what follows it. -/
def units : List Char → Option (List Nat × List Char)
  | [] => none
  | '"' :: r => some ([], r)
  | '\\' :: 'u' :: a :: b :: c :: d :: r => do
    let n ← codeUnit? a b c d
    let (ns, rest) ← units r
    return (n :: ns, rest)
  | '\\' :: e :: r => do
    let c ← simpleEscape? e
    let (ns, rest) ← units r
    return (c.toNat :: ns, rest)
  | c :: r => do
    if c.toNat < 0x20 ∨ c = '\\' then none
    else
      let (ns, rest) ← units r
      return (c.toNat :: ns, rest)

def isHighSurrogate (n : Nat) : Bool := 0xD800 ≤ n && n < 0xDC00

def isLowSurrogate (n : Nat) : Bool := 0xDC00 ≤ n && n < 0xE000

/-- The characters of code units; none if half of a surrogate pair stands alone. -/
def assemble : List Nat → Option (List Char)
  | [] => some []
  | n :: r =>
    if isHighSurrogate n then
      match r with
      | m :: r =>
        if isLowSurrogate m then
          (assemble r).map (Char.ofNat (0x10000 + (n - 0xD800) * 0x400 + (m - 0xDC00)) :: ·)
        else none
      | [] => none
    else if isLowSurrogate n then none
    else (assemble r).map (Char.ofNat n :: ·)

/-- A text after its opening quote: `none` inside for a garbled one. -/
def readText (cs : List Char) : Option (Option String × List Char) := do
  let (ns, rest) ← units cs
  return ((assemble ns).map String.ofList, rest)

def expect (word cs : List Char) : Option (List Char) :=
  if word.isPrefixOf cs then some (cs.drop word.length) else none

mutual

/-- The document at the start of a text. The first argument bounds the steps. -/
def readValue : Nat → List Char → Option (Json × List Char)
  | 0, _ => none
  | fuel + 1, cs =>
    match skip cs with
    | '"' :: r => do
      let (t, rest) ← readText r
      return (match t with | some s => .text s | none => .garbled, rest)
    | '[' :: r =>
      match skip r with
      | ']' :: rest => some (.list [], rest)
      | r => do
        let (items, rest) ← readItems fuel r
        return (.list items, rest)
    | '\x7b' :: r =>
      match skip r with
      | '\x7d' :: rest => some (.record [], rest)
      | r => do
        let (fields, rest) ← readFields fuel r
        return (.record fields, rest)
    | 't' :: r => (expect "rue".toList r).map (.bool true, ·)
    | 'f' :: r => (expect "alse".toList r).map (.bool false, ·)
    | 'n' :: r => (expect "ull".toList r).map (.null, ·)
    | cs => do
      let (n, rest) ← Numeral.read cs
      return (.number n, rest)

def readItems : Nat → List Char → Option (List Json × List Char)
  | 0, _ => none
  | fuel + 1, cs => do
    let (j, rest) ← readValue fuel cs
    match skip rest with
    | ',' :: r =>
      let (js, rest) ← readItems fuel r
      return (j :: js, rest)
    | ']' :: rest => return ([j], rest)
    | _ => none

def readFields : Nat → List Char → Option (List (Option String × Json) × List Char)
  | 0, _ => none
  | fuel + 1, cs => do
    match skip cs with
    | '"' :: r =>
      let (k, rest) ← readText r
      match skip rest with
      | ':' :: r =>
        let (j, rest) ← readValue fuel r
        match skip rest with
        | ',' :: r =>
          let (fs, rest) ← readFields fuel r
          return ((k, j) :: fs, rest)
        | '\x7d' :: rest => return ([(k, j)], rest)
        | _ => none
      | _ => none
    | _ => none

end

def parse? (s : String) : Option Json := do
  let cs := s.toList
  let (j, rest) ← readValue (2 * cs.length + 2) cs
  if (skip rest).isEmpty then return j else none

end SpanFlow.Json
