import SpanFlow.Text.Hex
import SpanFlow.Text.Unseen

namespace SpanFlow.Quoted

def shortHex (n : Nat) : List Char :=
  match (Hex.fixed 8 n).dropWhile (· = '0') with
  | [] => ['0']
  | ds => ds

def escape (c : Char) : List Char :=
  if c = '"' then ['\\', '"']
  else if c = '\\' then ['\\', '\\']
  else if c = '\n' then ['\\', 'n']
  else if c = '\r' then ['\\', 'r']
  else if c = '\t' then ['\\', 't']
  else if c = '\x00' then ['\\', '0']
  else if Unseen.isUnseen c then
    ['\\', 'u', '\x7b'] ++ shortHex c.toNat ++ ['\x7d']
  else [c]

def quote (s : String) : String :=
  String.ofList ('"' :: s.toList.flatMap escape ++ ['"'])

end SpanFlow.Quoted
