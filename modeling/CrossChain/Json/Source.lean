import CrossChain.Json.Value
/-! Reading JSON text. The text first becomes a tree that keeps each literal as written, with
every member of an object; only then are literals given values, since a part that nobody looks
at may hold a number out of range or half a surrogate pair. -/
namespace CrossChain.Json

structure Literal where
  negative : Bool
  whole : List Char
  fraction : Option (List Char)
  exponent : Option Int

/-- A JSON text as a tree. A string has no content if it holds half a surrogate pair. -/
inductive Source where
  | null
  | bool (b : Bool)
  | number (literal : Literal)
  | text (content : Option String)
  | array (items : List Source)
  | object (members : List (Option String × Source))

namespace Literal

/-- Adds digits to a number as long as it fits 64 bits; also gives the digits left over. -/
def accumulate : Nat → List Char → Nat × List Char
  | n, [] => (n, [])
  | n, c :: cs =>
    let next := n * 10 + (c.toNat - 48)
    if next < UInt64.size then accumulate next cs else (n, c :: cs)

/-- A double divided by a power of ten, at most 308 places at a time. -/
def scaleDown (x : Float) (places : Nat) : Float :=
  if places ≤ 308 then x / Float.ofScientific 1 false places
  else if x == 0 then x
  else scaleDown (x / 1e308) (places - 308)
termination_by places

def scale? (digits : Nat) (places : Int) : Option Float :=
  let x := (UInt64.ofNat digits).toFloat
  if places < 0 then some (scaleDown x places.natAbs)
  else if places ≤ 308 then
    let y := x * Float.ofScientific 1 false places.toNat
    if y.isInf then none else some y
  else if digits = 0 then some x
  else none

def float? (l : Literal) : Option Float :=
  let (digits, dropped) := accumulate 0 l.whole
  let fraction := l.fraction.getD []
  let (digits, ignored) := accumulate digits fraction
  let places := (dropped.length : Int) - ((fraction.length : Int) - ignored.length) +
    l.exponent.getD 0
  (scale? digits places).map fun x => if l.negative then -x else x

/-- A literal without point and exponent is a whole number if it fits; minus zero does
not. -/
def number? (l : Literal) : Option Number :=
  let (digits, dropped) := accumulate 0 l.whole
  if l.fraction = none ∧ l.exponent = none ∧ dropped = [] then
    if !l.negative then some (.natural (UInt64.ofNat digits))
    else if digits ≠ 0 ∧ digits ≤ 1 <<< 63 then some (.negative (UInt64.ofNat digits))
    else l.float?.map .float
  else l.float?.map .float

end Literal

namespace Source

def isSpace (c : Char) : Bool :=
  c = ' ' || c = '\n' || c = '\t' || c = '\r'

def isDigit (c : Char) : Bool :=
  48 ≤ c.toNat && c.toNat ≤ 57

def hexValue? (c : Char) : Option Nat :=
  let n := c.toNat
  if 48 ≤ n ∧ n ≤ 57 then some (n - 48)
  else if 97 ≤ n ∧ n ≤ 102 then some (n - 87)
  else if 65 ≤ n ∧ n ≤ 70 then some (n - 55)
  else none

def escaped? (c : Char) : Option Char :=
  if c = '"' ∨ c = '\\' ∨ c = '/' then some c
  else if c = 'b' then some '\x08'
  else if c = 'f' then some '\x0c'
  else if c = 'n' then some '\n'
  else if c = 'r' then some '\r'
  else if c = 't' then some '\t'
  else none

/-- The code units of a string behind its opening mark, and the text after its closing
mark. -/
def units? : List Char → Option (List Nat × List Char)
  | [] => none
  | '"' :: rest => some ([], rest)
  | '\\' :: 'u' :: a :: b :: c :: d :: rest => do
    let unit := (((← hexValue? a) * 16 + (← hexValue? b)) * 16 + (← hexValue? c)) * 16 +
      (← hexValue? d)
    let (units, rest) ← units? rest
    return (unit :: units, rest)
  | '\\' :: c :: rest => do
    let c ← escaped? c
    let (units, rest) ← units? rest
    return (c.toNat :: units, rest)
  | c :: rest =>
    if c.toNat < 0x20 ∨ c = '\\' then none
    else (units? rest).map fun (units, rest) => (c.toNat :: units, rest)

/-- Code units as characters; the halves of a surrogate pair must stand together. -/
def join? : List Nat → Option (List Char)
  | [] => some []
  | [u] => if 0xD800 ≤ u ∧ u ≤ 0xDFFF then none else some [Char.ofNat u]
  | u :: v :: rest =>
    if 0xD800 ≤ u ∧ u ≤ 0xDBFF then
      if 0xDC00 ≤ v ∧ v ≤ 0xDFFF then
        (join? rest).map (Char.ofNat (0x10000 + (u - 0xD800) * 0x400 + (v - 0xDC00)) :: ·)
      else none
    else if 0xDC00 ≤ u ∧ u ≤ 0xDFFF then none
    else (join? (v :: rest)).map (Char.ofNat u :: ·)

def string? (cs : List Char) : Option (Option String × List Char) :=
  (units? cs).map fun (units, rest) => ((join? units).map String.ofList, rest)

def digits? (cs : List Char) : Option (List Char × List Char) :=
  match cs.takeWhile isDigit with
  | [] => none
  | ds => some (ds, cs.dropWhile isDigit)

def exponent? (cs : List Char) : Option (Option Int × List Char) :=
  match cs with
  | e :: rest =>
    if e = 'e' ∨ e = 'E' then do
      let (negative, rest) := match rest with
        | '-' :: rest => (true, rest)
        | '+' :: rest => (false, rest)
        | _ => (false, rest)
      let (ds, rest) ← digits? rest
      let n : Nat := ds.foldl (fun n c => n * 10 + (c.toNat - 48)) 0
      return (some (if negative then -(n : Int) else n), rest)
    else some (none, cs)
  | [] => some (none, [])

def number? (cs : List Char) : Option (Literal × List Char) := do
  let (negative, cs) := match cs with
    | '-' :: rest => (true, rest)
    | _ => (false, cs)
  let (whole, cs) ← match cs with
    | '0' :: rest => some (['0'], rest)
    | _ => digits? cs
  let (fraction, cs) ← match cs with
    | '.' :: rest => (digits? rest).map fun (ds, rest) => (some ds, rest)
    | _ => some (none, cs)
  let (exponent, cs) ← exponent? cs
  return (⟨negative, whole, fraction, exponent⟩, cs)

def skip (cs : List Char) : List Char :=
  cs.dropWhile isSpace

mutual

/-- The value at the front of the text. The first argument bounds the number of steps. -/
def value? : Nat → List Char → Option (Source × List Char)
  | 0, _ => none
  | steps + 1, cs =>
    match skip cs with
    | 'n' :: 'u' :: 'l' :: 'l' :: rest => some (.null, rest)
    | 't' :: 'r' :: 'u' :: 'e' :: rest => some (.bool true, rest)
    | 'f' :: 'a' :: 'l' :: 's' :: 'e' :: rest => some (.bool false, rest)
    | '"' :: rest => (string? rest).map fun (s, rest) => (.text s, rest)
    | '[' :: rest =>
      match skip rest with
      | ']' :: rest => some (.array [], rest)
      | _ => (items? steps rest).map fun (items, rest) => (.array items, rest)
    | '\x7b' :: rest =>
      match skip rest with
      | '\x7d' :: rest => some (.object [], rest)
      | _ => (members? steps rest).map fun (members, rest) => (.object members, rest)
    | cs => (number? cs).map fun (literal, rest) => (.number literal, rest)

/-- At least one item, up to the closing bracket. -/
def items? : Nat → List Char → Option (List Source × List Char)
  | 0, _ => none
  | steps + 1, cs => do
    let (item, rest) ← value? steps cs
    match skip rest with
    | ']' :: rest => return ([item], rest)
    | ',' :: rest =>
      let (items, rest) ← items? steps rest
      return (item :: items, rest)
    | _ => none

def members? : Nat → List Char → Option (List (Option String × Source) × List Char)
  | 0, _ => none
  | steps + 1, cs =>
    match skip cs with
    | '"' :: rest => do
      let (key, rest) ← string? rest
      match skip rest with
      | ':' :: rest =>
        let (value, rest) ← value? steps rest
        match skip rest with
        | '\x7d' :: rest => return ([(key, value)], rest)
        | ',' :: rest =>
          let (members, rest) ← members? steps rest
          return ((key, value) :: members, rest)
        | _ => none
      | _ => none
    | _ => none

end

def parse? (text : String) : Option Source := do
  let cs := text.toList
  let (source, rest) ← value? (2 * cs.length + 2) cs
  if skip rest = [] then some source else none

end Source

/-- Sets a member of an object whose names are in order, and keeps them so. -/
def insertMember (key : String) (v : Json) : List (String × Json) → List (String × Json)
  | [] => [(key, v)]
  | (k, w) :: rest =>
    if key = k then (key, v) :: rest
    else if key < k then (key, v) :: (k, w) :: rest
    else (k, w) :: insertMember key v rest

mutual

/-- The value of a tree, if every literal in it has one. Of members with one name the last
counts, and names are put in order. -/
def Source.toJson? : Source → Option Json
  | .null => some .null
  | .bool b => some (.bool b)
  | .number literal => literal.number?.map .number
  | .text content => content.map .text
  | .array items => (toItems? items).map .array
  | .object members => (toMembers? [] members).map .object

def toItems? : List Source → Option (List Json)
  | [] => some []
  | s :: rest => do
    let v ← Source.toJson? s
    let vs ← toItems? rest
    return v :: vs

def toMembers? (before : List (String × Json)) :
    List (Option String × Source) → Option (List (String × Json))
  | [] => some before
  | (key, s) :: rest => do
    let key ← key
    let v ← Source.toJson? s
    toMembers? (insertMember key v before) rest

end

def parse? (text : String) : Option Json := do
  (← Source.parse? text).toJson?

end CrossChain.Json
