import SpanFlow.Text.Ascii

namespace SpanFlow

structure Uri where
  scheme : Option String
  authority : Option String
  path : String
  query : Option String
  deriving DecidableEq

inductive UriError where
  | empty
  | badCharacter
  deriving DecidableEq

def UriError.message : UriError → String
  | .empty => "empty string"
  | .badCharacter => "invalid uri character"

namespace Uri

def isForbidden (c : Char) : Bool :=
  c.toNat ≤ 0x20 || c.toNat == 0x7F

def splitAtFirst (sep : List Char) : List Char → Option (List Char × List Char)
  | [] => if sep.isEmpty then some ([], []) else none
  | c :: r =>
    if sep.isPrefixOf (c :: r) then some ([], (c :: r).drop sep.length)
    else (splitAtFirst sep r).map fun (a, b) => (c :: a, b)

def pathAndQuery (cs : List Char) : List Char × Option (List Char) :=
  let cs := cs.takeWhile (· ≠ '#')
  match splitAtFirst ['?'] cs with
  | some (p, q) => (p, some q)
  | none => (cs, none)

/-- The two schemes that are compared without case are written in small letters. -/
def schemeText (cs : List Char) : String :=
  let s := String.ofList cs
  if ["http", "https"].contains (Ascii.lower s) then Ascii.lower s else s

def endsAuthority (c : Char) : Bool :=
  c == '/' || c == '?' || c == '#'

def parse (s : String) : Except UriError Uri :=
  let cs := s.toList
  if cs.isEmpty then .error .empty
  else if cs.any isForbidden then .error .badCharacter
  else if cs.head? = some '/' ∨ cs = ['*'] then
    let (p, q) := pathAndQuery cs
    .ok ⟨none, none, String.ofList p, q.map String.ofList⟩
  else
    match splitAtFirst "://".toList cs with
    | some (scheme, rest) =>
      let authority := rest.takeWhile (!endsAuthority ·)
      let (p, q) := pathAndQuery (rest.dropWhile (!endsAuthority ·))
      .ok ⟨some (schemeText scheme), some (String.ofList authority),
        if p.isEmpty then "/" else String.ofList p, q.map String.ofList⟩
    | none => .ok ⟨none, some s, "", none⟩

def text (u : Uri) : String :=
  (match u.scheme with
    | some s => s ++ "://"
    | none => "") ++ u.authority.getD "" ++ u.path ++
  match u.query with
  | some q => "?" ++ q
  | none => ""

def afterUserInfo (cs : List Char) : List Char :=
  (cs.reverse.takeWhile (· ≠ '@')).reverse

/-- The host of an authority: no user, no port; an IPv6 address keeps its brackets. -/
def host? (u : Uri) : Option String :=
  u.authority.map fun a =>
    let cs := afterUserInfo a.toList
    if cs.head? = some '[' then
      match splitAtFirst [']'] cs with
      | some (inside, _) => String.ofList (inside ++ [']'])
      | none => String.ofList cs
    else String.ofList (cs.takeWhile (· ≠ ':'))

end Uri

end SpanFlow
