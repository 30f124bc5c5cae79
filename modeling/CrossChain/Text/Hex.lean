import CrossChain.Bytes
import CrossChain.Text.Blank
import CrossChain.Text.Quoted
/-! Base 16. Writing uses small letters, reading takes either case; what was written reads
back. -/
namespace CrossChain.Hex

/-- Why a text is not a byte string in base 16. A bad digit is named by its UTF-8 byte. -/
inductive Fault where
  | oddLength
  | badDigit (byte : UInt8) (position : Nat)
deriving DecidableEq

def Fault.message : Fault → String
  | .oddLength => "Odd number of digits"
  | .badDigit byte position =>
    "Invalid character " ++ Text.Quoted.char (Char.ofNat byte.toNat) ++
      " at position " ++ toString position

def digit (n : Nat) : Char :=
  if n < 10 then Char.ofNat (48 + n) else Char.ofNat (87 + n)

def value? (b : UInt8) : Option Nat :=
  let n := b.toNat
  if 48 ≤ n ∧ n ≤ 57 then some (n - 48)
  else if 97 ≤ n ∧ n ≤ 102 then some (n - 87)
  else if 65 ≤ n ∧ n ≤ 70 then some (n - 55)
  else none

def encode (bs : Bytes) : List Char :=
  bs.flatMap fun b => [digit (b.toNat / 16), digit (b.toNat % 16)]

def value (b : UInt8) (position : Nat) : Except Fault Nat :=
  match value? b with
  | some v => .ok v
  | none => .error (.badDigit b position)

/-- Reads pairs of digits, of which the first stands at the given position. -/
def decodePairs : Nat → Bytes → Except Fault Bytes
  | _, [] => .ok []
  | _, [_] => .error .oddLength
  | i, a :: b :: rest => do
    let high ← value a i
    let low ← value b (i + 1)
    let bs ← decodePairs (i + 2) rest
    return UInt8.ofNat (16 * high + low) :: bs

/-- Reads digits; an odd number of bytes is found before a bad digit. -/
def decode (digits : List Char) : Except Fault Bytes :=
  let bs := Text.utf8 digits
  if bs.length % 2 = 1 then .error .oddLength else decodePairs 0 bs

def dropMark? : List Char → Option (List Char)
  | '0' :: 'x' :: digits => some digits
  | '0' :: 'X' :: digits => some digits
  | _ => none

/-- A byte string as shown to users: the mark and the digits. -/
def text (bs : Bytes) : String :=
  String.ofList ('0' :: 'x' :: encode bs)

end CrossChain.Hex
