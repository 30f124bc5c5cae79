import CrossChain.Decimal.Shortest
/-! JSON values and their compact text. A number keeps the kind of its literal, and an object
is the list of its members in the order in which they are visited. -/
namespace CrossChain

/-- A number is a natural number of 64 bits, the negative of one up to `2 ^ 63`, or a
double. -/
inductive Json.Number where
  | natural (n : UInt64)
  | negative (magnitude : UInt64)
  | float (x : Float)

inductive Json where
  | null
  | bool (b : Bool)
  | number (n : Json.Number)
  | text (s : String)
  | array (items : List Json)
  | object (members : List (String × Json))

namespace Json

instance : Inhabited Json := ⟨.null⟩

def get? (key : String) : Json → Option Json
  | .object members => (members.find? fun m => m.1 = key).map Prod.snd
  | _ => none

def isObject : Json → Bool
  | .object _ => true
  | _ => false

/-- Doubles are positional from `0.00001` up to 16 digits before the point. -/
def floatStyle : Decimal.Style := ⟨-5, 16, "+"⟩

def Number.render : Number → String
  | .natural n => toString n.toNat
  | .negative n => "-" ++ toString n.toNat
  | .float x => Decimal.render floatStyle x

def escape (c : Char) : List Char :=
  if c = '"' then ['\\', '"']
  else if c = '\\' then ['\\', '\\']
  else if c = '\x08' then ['\\', 'b']
  else if c = '\t' then ['\\', 't']
  else if c = '\n' then ['\\', 'n']
  else if c = '\x0c' then ['\\', 'f']
  else if c = '\r' then ['\\', 'r']
  else if c.toNat < 0x20 then
    ['\\', 'u', '0', '0', Nat.digitChar (c.toNat / 16), Nat.digitChar (c.toNat % 16)]
  else [c]

def quote (s : String) : String :=
  String.ofList ('"' :: s.toList.flatMap escape ++ ['"'])

mutual

def render : Json → String
  | .null => "null"
  | .bool b => if b then "true" else "false"
  | .number n => n.render
  | .text s => quote s
  | .array items => "[" ++ renderItems items ++ "]"
  | .object members => "\x7b" ++ renderMembers members ++ "\x7d"

def renderItems : List Json → String
  | [] => ""
  | [v] => render v
  | v :: rest => render v ++ "," ++ renderItems rest

def renderMembers : List (String × Json) → String
  | [] => ""
  | [(key, v)] => quote key ++ ":" ++ render v
  | (key, v) :: rest => quote key ++ ":" ++ render v ++ "," ++ renderMembers rest

end

/-- The text cut to 256 characters, with dots where something is missing. -/
def excerpt (v : Json) : String :=
  let cs := (render v).toList
  if cs.length ≤ 256 then String.ofList cs else String.ofList (cs.take 256) ++ "..."

end Json

end CrossChain
