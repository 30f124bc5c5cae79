import CrossChain.Bytes
import CrossChain.Text.Blank
import CrossChain.Text.Quoted
/-! Base 58. A byte string is its number in 58 digits without leading zeros, after one `1`
for each leading zero byte. -/
namespace CrossChain.Base58

inductive Fault where
  | badCharacter (byte : UInt8) (position : Nat)
  | notAscii (position : Nat)
deriving DecidableEq

def Fault.message : Fault → String
  | .badCharacter byte position =>
    "provided string contained invalid character " ++
      Text.Quoted.char (Char.ofNat byte.toNat) ++ " at byte " ++ toString position
  | .notAscii position =>
    "provided string contained non-ascii character starting at byte " ++ toString position

/-- All digits and letters but `0`, `I`, `O` and `l`. -/
def alphabet : List Char :=
  "123456789ABCDEFGHJKLMNPQRSTUVWXYZabcdefghijkmnopqrstuvwxyz".toList

def digit (n : Nat) : Char :=
  alphabet.getD n '1'

def value? (b : UInt8) : Option Nat :=
  alphabet.findIdx? fun c => c.toNat = b.toNat

/-- The digits of a number in a base, the least significant first, none of them for zero.
The first argument bounds their count. -/
def digitsOf (base : Nat) : Nat → Nat → List Nat
  | 0, _ => []
  | count + 1, n => if n = 0 then [] else n % base :: digitsOf base count (n / base)

def ofDigits (base : Nat) (digits : List Nat) : Nat :=
  digits.foldl (fun n d => n * base + d) 0

def encode (bs : Bytes) : List Char :=
  let zeros := bs.takeWhile (· == 0)
  let n := Bytes.toNatBE bs
  zeros.map (fun _ => '1') ++ ((digitsOf 58 n n).map digit).reverse

/-- The values of the characters, of which the first stands at the given position. -/
def values : Nat → Bytes → Except Fault (List Nat)
  | _, [] => .ok []
  | i, b :: bs =>
    if 127 < b.toNat then .error (.notAscii i)
    else
      match value? b with
      | none => .error (.badCharacter b i)
      | some v => (values (i + 1) bs).map (v :: ·)

def decode (text : List Char) : Except Fault Bytes := do
  let vs ← values 0 (Text.utf8 text)
  let n := ofDigits 58 vs
  let zeros := vs.takeWhile (· == 0)
  return zeros.map (fun _ => 0) ++ ((digitsOf 256 n n).map UInt8.ofNat).reverse

end CrossChain.Base58
