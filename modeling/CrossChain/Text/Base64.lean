import CrossChain.Bytes
import CrossChain.Text.Blank
/-! Base 64 in its canonical form: padded to whole groups of four, and the bits that padding
leaves over are zero. -/
namespace CrossChain.Base64

/-- Which two characters stand for the last two values. -/
inductive Alphabet where
  | standard
  | url
deriving DecidableEq

inductive Fault where
  | badSymbol (byte : UInt8) (position : Nat)
  | badLastSymbol (byte : UInt8) (position : Nat)
  | badLength (length : Nat)
  | badPadding
deriving DecidableEq

def Fault.message : Fault → String
  | .badSymbol byte position =>
    "Invalid symbol " ++ toString byte.toNat ++ ", offset " ++ toString position ++ "."
  | .badLastSymbol byte position =>
    "Invalid last symbol " ++ toString byte.toNat ++ ", offset " ++ toString position ++ "."
  | .badLength length => "Invalid input length: " ++ toString length
  | .badPadding => "Invalid padding"

def padding : UInt8 := 61

def value? (alphabet : Alphabet) (b : UInt8) : Option Nat :=
  let n := b.toNat
  if 65 ≤ n ∧ n ≤ 90 then some (n - 65)
  else if 97 ≤ n ∧ n ≤ 122 then some (n - 71)
  else if 48 ≤ n ∧ n ≤ 57 then some (n + 4)
  else
    match alphabet with
    | .standard => if n = 43 then some 62 else if n = 47 then some 63 else none
    | .url => if n = 45 then some 62 else if n = 95 then some 63 else none

def symbol (alphabet : Alphabet) (v : Nat) : Char :=
  if v < 26 then Char.ofNat (65 + v)
  else if v < 52 then Char.ofNat (71 + v)
  else if v < 62 then Char.ofNat (v - 4)
  else
    match alphabet with
    | .standard => if v = 62 then '+' else '/'
    | .url => if v = 62 then '-' else '_'

/-- Four symbols for three bytes; the last group is filled with padding. -/
def encode (alphabet : Alphabet) : Bytes → List Char
  | [] => []
  | [a] =>
    let n := a.toNat * 16
    [symbol alphabet (n / 64), symbol alphabet (n % 64), '=', '=']
  | [a, b] =>
    let n := (a.toNat * 256 + b.toNat) * 4
    [symbol alphabet (n / 4096), symbol alphabet (n / 64 % 64), symbol alphabet (n % 64), '=']
  | a :: b :: c :: rest =>
    let n := (a.toNat * 256 + b.toNat) * 256 + c.toNat
    symbol alphabet (n / 262144) :: symbol alphabet (n / 4096 % 64) ::
      symbol alphabet (n / 64 % 64) :: symbol alphabet (n % 64) :: encode alphabet rest

def value (alphabet : Alphabet) (b : UInt8) (position : Nat) : Except Fault Nat :=
  match value? alphabet b with
  | some v => .ok v
  | none => .error (.badSymbol b position)

/-- Groups of four symbols without padding, of which the first stands at the given
position. -/
def decodeGroups (alphabet : Alphabet) : Nat → Bytes → Except Fault Bytes
  | i, a :: b :: c :: d :: rest => do
    let a ← value alphabet a i
    let b ← value alphabet b (i + 1)
    let c ← value alphabet c (i + 2)
    let d ← value alphabet d (i + 3)
    let n := ((a * 64 + b) * 64 + c) * 64 + d
    let bs ← decodeGroups alphabet (i + 4) rest
    return UInt8.ofNat (n / 65536) :: UInt8.ofNat (n / 256) :: UInt8.ofNat n :: bs
  | _, _ => .ok []

/-- The symbols of the last group and the number of padding characters behind them. Padding
may not stand before the third place, nor before a symbol. -/
def splitPadding (alphabet : Alphabet) (start : Nat) :
    Nat → Nat → Bytes → Except Fault (List (UInt8 × Nat) × Nat)
  | _, pads, [] => .ok ([], pads)
  | i, pads, b :: bs =>
    if b = padding then
      if i < 2 then .error (.badSymbol b (start + i))
      else splitPadding alphabet start (i + 1) (pads + 1) bs
    else if 0 < pads then .error (.badSymbol padding (start + i - pads))
    else
      match value? alphabet b with
      | none => .error (.badSymbol b (start + i))
      | some v =>
        (splitPadding alphabet start (i + 1) 0 bs).map fun (vs, pads) => ((b, v) :: vs, pads)

def decodeLast (alphabet : Alphabet) (start : Nat) (group : Bytes) : Except Fault Bytes := do
  let (symbols, pads) ← splitPadding alphabet start 0 0 group
  if (symbols.length + pads) % 4 ≠ 0 ∧ 2 ≤ symbols.length then throw .badPadding
  match symbols with
  | [] => return []
  | [_] => throw (.badLength (start + 1))
  | [(_, a), (last, b)] =>
    if b % 16 ≠ 0 then throw (.badLastSymbol last (start + 1))
    return [UInt8.ofNat ((a * 64 + b) / 16)]
  | [(_, a), (_, b), (last, c)] =>
    if c % 4 ≠ 0 then throw (.badLastSymbol last (start + 2))
    let n := (a * 64 + b) * 64 + c
    return [UInt8.ofNat (n / 1024), UInt8.ofNat (n / 4)]
  | (_, a) :: (_, b) :: (_, c) :: (_, d) :: _ =>
    let n := ((a * 64 + b) * 64 + c) * 64 + d
    return [UInt8.ofNat (n / 65536), UInt8.ofNat (n / 256), UInt8.ofNat n]

def lastStart (length : Nat) : Nat :=
  if length % 4 = 0 then length - 4 else length - length % 4

/-- A single symbol too many that is no symbol at all is reported before all else. -/
def decode (alphabet : Alphabet) (text : List Char) : Except Fault Bytes := do
  let input := Text.utf8 text
  let start := lastStart input.length
  if input.length % 4 = 1 then
    if let some b := input.getLast? then
      if b ≠ padding ∧ value? alphabet b = none then
        throw (.badSymbol b (input.length - 1))
  let groups ← decodeGroups alphabet 0 (input.take start)
  let last ← decodeLast alphabet start (input.drop start)
  return groups ++ last

end CrossChain.Base64
