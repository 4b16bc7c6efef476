namespace SpanFlow.Token

def marks : List Char :=
  ['!', '#', '$', '%', '&', '\x27', '*', '+', '-', '.', '^', '_', '\x60', '|', '~']

def isTokenChar (c : Char) : Bool :=
  c.isAlphanum || marks.contains c

def isToken (s : String) : Bool :=
  !s.toList.isEmpty && s.toList.all isTokenChar

end SpanFlow.Token
