import CrossChain.Text.Blank
/-! Generations of the message format. -/
namespace CrossChain

inductive Version where
  | v1_2
  | v1_5
  | v1_6
deriving DecidableEq, Inhabited

namespace Version

def text : Version → String
  | .v1_2 => "1.2.0"
  | .v1_5 => "1.5.0"
  | .v1_6 => "1.6.0"

/-- Before 1.6 a message was one flat record. -/
def isLegacy : Version → Bool
  | .v1_6 => false
  | _ => true

/-- The version at the end of a text such as `EVM2EVMOnRamp 1.5.0-dev`; only its first two
parts count. -/
def ofText? (s : String) : Option Version :=
  let number := (Text.lastWord s.toList).takeWhile (· ≠ '-')
  let major := number.takeWhile (· ≠ '.')
  let minor := ((number.dropWhile (· ≠ '.')).drop 1).takeWhile (· ≠ '.')
  if major ≠ ['1'] then none
  else if minor = ['2'] then some .v1_2
  else if minor = ['5'] then some .v1_5
  else if minor = ['6'] then some .v1_6
  else none

theorem ofText?_text (v : Version) : ofText? v.text = some v := by cases v <;> decide

end Version

end CrossChain
