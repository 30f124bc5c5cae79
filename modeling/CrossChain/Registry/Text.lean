import CrossChain.Json.Source
import CrossChain.Registry.Basic
/-! Registries as JSON: a list of records with selector, family, name and an optional mark for
test networks. -/
namespace CrossChain.Registry

namespace ChainField

def family : Json.Reader Family := fun v => do
  let s ← Json.Reader.text v
  match Family.ofName? s with
  | some f => return f
  | none => throw (.unknownFamily s)

def uint64 : Json.Reader UInt64
  | .number (.natural n) => .ok n
  | v => .error (Json.wrongType v "u64")

end ChainField

def selectorField : Json.Field UInt64 := .required "selector" ChainField.uint64
def familyField : Json.Field Family := .required "family" ChainField.family
def nameField : Json.Field String := .required "name" Json.Reader.text
def testnetField : Json.Field Bool := .withDefault "testnet" false Json.Reader.bool

def chainSlots : List Json.Slot :=
  [selectorField.slot, familyField.slot, nameField.slot, testnetField.slot]

def readChain : Json.Reader Chain := fun v => do
  let members ← Json.members "ChainInfo" chainSlots v
  return {
    selector := ← selectorField.get members
    family := ← familyField.get members
    name := ← nameField.get members
    testnet := ← testnetField.get members }

/-- The members of a record that are fields of a chain, repetitions included. The values of
others are not looked at. -/
def chainMembers? : List (Option String × Json.Source) → Option Json.Members
  | [] => some []
  | (key, source) :: rest => do
    let key ← key
    let members ← chainMembers? rest
    if chainSlots.any (·.accepts key) then return (key, ← source.toJson?) :: members
    else return members

def chain? : Json.Source → Option Chain
  | .object members => do (readChain (.object (← chainMembers? members))).toOption
  | source => do (readChain (← source.toJson?)).toOption

/-- The chains of a text, or none if one of its records is no chain. -/
def chains? (text : String) : Option (List Chain) := do
  match ← Json.Source.parse? text with
  | .array items => items.mapM chain?
  | _ => none

def parse (text : String) : Except Error Registry :=
  match chains? text with
  | some chains => ofChains chains
  | none => .error (.badRegistry .notAList)

def chainJson (c : Chain) : Json :=
  .object [("selector", .number (.natural c.selector)), ("family", .text c.family.name),
    ("name", .text c.name), ("testnet", .bool c.testnet)]

/-- All members of a chain are written, the mark of a main network too. -/
def render (r : Registry) : String :=
  (Json.array (r.chains.map chainJson)).render

end CrossChain.Registry
