import CrossChain.Text.Numeral
/-! Positions at the end of a message, as in `stray bracket at line 2 column 7`. The numbers have
one written form, and line 0 is nowhere, so that a message about no line names none. -/
namespace CrossChain.Text.Position

/-- A message without the position at its end, and the line and column of that. -/
def cut? (cs : List Char) : Option (List Char × Nat × Nat) := do
  let reversed := cs.reverse
  let column := reversed.takeWhile Char.isDigit
  let rest ← dropStart? " column ".toList.reverse (reversed.dropWhile Char.isDigit)
  let line := rest.takeWhile Char.isDigit
  let rest ← dropStart? " at line ".toList.reverse (rest.dropWhile Char.isDigit)
  let line ← Numeral.natural? UInt64.size line.reverse
  let column ← Numeral.natural? UInt64.size column.reverse
  return (rest.reverse, line, column)

def normalize (message : String) : String :=
  match cut? message.toList with
  | none => message
  | some (text, line, column) =>
    if line = 0 then String.ofList text
    else String.ofList text ++ " at line " ++ toString line ++ " column " ++ toString column

end CrossChain.Text.Position
