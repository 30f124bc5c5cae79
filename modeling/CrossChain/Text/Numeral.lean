import CrossChain.Bytes
import CrossChain.Text.Blank
import CrossChain.Text.Hex
/-! Numerals: machine integers in base 10 and 256-bit numbers in base 10 or 16. A 256-bit
number is read whole or refused; it is never cut to its width. -/
namespace CrossChain.Numeral

def decimal? : List Char → Option Nat
  | [] => none
  | cs =>
    if cs.all fun c => 48 ≤ c.toNat ∧ c.toNat ≤ 57 then
      some (cs.foldl (fun n c => n * 10 + (c.toNat - 48)) 0)
    else none

def natural? (limit : Nat) (cs : List Char) : Option Nat :=
  let digits := match cs with
    | '+' :: rest => rest
    | _ => cs
  (decimal? digits).filter (· < limit)

def uint64? (s : String) : Option UInt64 :=
  (natural? UInt64.size s.toList).map UInt64.ofNat

def int32? (cs : List Char) : Option Int :=
  match cs with
  | '-' :: digits => ((decimal? digits).filter (· ≤ 1 <<< 31)).map fun n => -(n : Int)
  | _ => (natural? (1 <<< 31) cs).map Int.ofNat

/-- Why a text is no 256-bit number. A bad digit is named by its UTF-8 byte. -/
inductive Fault where
  | badDigit (byte : UInt8)
  | tooLarge
deriving DecidableEq

def Fault.message : Fault → String
  | .badDigit byte => "invalid digit: " ++ String.ofList [Char.ofNat byte.toNat]
  | .tooLarge => "the value is too large to fit the target type"

def digit? (radix : Nat) (b : UInt8) : Option Nat :=
  (Hex.value? b).filter (· < radix)

/-- The digits before the first byte that is none, and that byte. Low lines are skipped. -/
def leadingDigits (radix : Nat) : Bytes → List Nat × Option UInt8
  | [] => ([], none)
  | b :: bs =>
    if b = 95 then leadingDigits radix bs
    else
      match digit? radix b with
      | some d =>
        let (digits, bad) := leadingDigits radix bs
        (d :: digits, bad)
      | none => ([], some b)

def ofDigits (radix : Nat) (digits : List Nat) : Nat :=
  digits.foldl (fun n d => n * radix + d) 0

/-- The outcome for a number read in full or up to a bad byte: what is already too large is
refused as such. -/
def settle (n : Nat) : Option UInt8 → Except Fault U256
  | none => if n < 1 <<< 256 then .ok (BitVec.ofNat 256 n) else .error .tooLarge
  | some b => .error (if n < 1 <<< 256 then .badDigit b else .tooLarge)

/-- Decimal digits are taken from the front in groups of nineteen, as many as always fit 64
bits; a group counts once it is full or the text ends. -/
def u256OfDecimal (text : List Char) : Except Fault U256 :=
  match leadingDigits 10 (Text.utf8 text) with
  | (digits, none) => settle (ofDigits 10 digits) none
  | (digits, some b) => settle (ofDigits 10 (digits.take (digits.length / 19 * 19))) (some b)

/-- Hexadecimal digits come from the end, and each counts at once. -/
def u256OfHex (text : List Char) : Except Fault U256 :=
  let (digits, bad) := leadingDigits 16 (Text.utf8 text).reverse
  settle (ofDigits 16 digits.reverse) bad

end CrossChain.Numeral
