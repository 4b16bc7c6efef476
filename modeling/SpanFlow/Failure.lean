import SpanFlow.Text.Quoted

namespace SpanFlow

structure FailureInfo where
  typeName : String
  message : String
  deriving DecidableEq

namespace FailureInfo

/-- The text after the last `::`, or the first argument if there is none. -/
def lastSegment : List Char → List Char → List Char
  | acc, [] => acc
  | acc, c :: r => lastSegment (if c = ':' ∧ r.head? = some ':' then r.tail else acc) r

/-- The type's own name: no path, no arguments. -/
def kindChars (typeName : List Char) : List Char :=
  let path := typeName.takeWhile (· ≠ '<')
  lastSegment path path

def kind (e : FailureInfo) : String :=
  String.ofList (kindChars e.typeName.toList)

def debug (e : FailureInfo) : String :=
  "ErrorInfo \x7b type_name: " ++ Quoted.quote e.typeName ++ ", message: " ++ Quoted.quote e.message ++ " \x7d"

end FailureInfo

end SpanFlow
