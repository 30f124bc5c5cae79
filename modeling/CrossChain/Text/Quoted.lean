import CrossChain.Text.Printable
/-! Quoting of characters and texts in messages: what a reader could not see, and the
quotation mark itself, are written as escapes. -/
namespace CrossChain.Text.Quoted

/-- One character between the given marks. -/
def escape (mark : Char) (c : Char) : List Char :=
  if c = '\x00' then ['\\', '0']
  else if c = '\t' then ['\\', 't']
  else if c = '\r' then ['\\', 'r']
  else if c = '\n' then ['\\', 'n']
  else if c = '\\' then ['\\', '\\']
  else if c = mark then ['\\', c]
  else if isPrintable c then [c]
  else ['\\', 'u', '\x7b'] ++ Nat.toDigits 16 c.toNat ++ ['\x7d']

def char (c : Char) : String :=
  String.ofList ('\'' :: escape '\'' c ++ ['\''])

def text (s : String) : String :=
  String.ofList ('"' :: s.toList.flatMap (escape '"') ++ ['"'])

end CrossChain.Text.Quoted
