/-! The shortest decimal that reads back as a given double. A finite double `m * 2 ^ q` is
the nearest double to every real in an interval around it; of the decimals with the fewest
digits in that interval the one nearest to the double is taken, of two the even one. -/
namespace CrossChain.Decimal

/-- A finite double without its sign, as `mantissa * 2 ^ exponent`. It is `narrow` if the
next smaller double is only half as far away as the next larger one. -/
structure Double where
  mantissa : Nat
  exponent : Int
  narrow : Bool

def Double.ofBits (bits : UInt64) : Double :=
  let exponent : Nat := (bits.toNat >>> 52) % 1 <<< 11
  let fraction : Nat := bits.toNat % 1 <<< 52
  if exponent = 0 then ⟨fraction, -1074, false⟩
  else ⟨fraction + 1 <<< 52, (exponent : Int) - 1075, fraction = 0 ∧ 1 < exponent⟩

structure Scientific where
  digits : Nat
  exponent : Int
deriving DecidableEq

/-- The fraction `lower / scale ≤ value / scale ≤ upper / scale` of the reals nearest to a
double; the ends belong to it if `closed`. -/
structure Interval where
  lower : Nat
  value : Nat
  upper : Nat
  scale : Nat
  closed : Bool

def Double.interval (d : Double) : Interval :=
  let up := 1 <<< (d.exponent - 2).toNat
  let down := 1 <<< (2 - d.exponent).toNat
  ⟨(4 * d.mantissa - if d.narrow then 1 else 2) * up, 4 * d.mantissa * up,
    (4 * d.mantissa + 2) * up, down, d.mantissa % 2 = 0⟩

/-- Whether `n` units of the grid lie in the interval, which is measured in the same
units times the scale. -/
def Interval.holds (i : Interval) (n : Nat) : Bool :=
  if i.closed then i.lower ≤ n && n ≤ i.upper else i.lower < n && n < i.upper

/-- The point of the grid of multiples of `10 ^ exponent` that is nearest to the value, if
it lies in the interval. -/
def Interval.onGrid? (i : Interval) (exponent : Int) : Option Nat :=
  let i := { i with
    lower := i.lower * Nat.pow 10 (-exponent).toNat
    value := i.value * Nat.pow 10 (-exponent).toNat
    upper := i.upper * Nat.pow 10 (-exponent).toNat
    scale := i.scale * Nat.pow 10 exponent.toNat }
  let below := i.value / i.scale
  let above := below + 1
  let toBelow := i.value - below * i.scale
  let toAbove := above * i.scale - i.value
  match i.holds (below * i.scale), i.holds (above * i.scale) with
  | true, true =>
    if toBelow < toAbove then some below
    else if toAbove < toBelow then some above
    else some (if below % 2 = 0 then below else above)
  | true, false => some below
  | false, true => some above
  | false, false => none

def Interval.magnitude (i : Interval) : Int :=
  ((Nat.toDigits 10 (i.value * Nat.pow 10 400 / i.scale)).length : Int) - 401

def Scientific.strip : Nat → Scientific → Scientific
  | 0, d => d
  | count + 1, d =>
    if d.digits ≠ 0 ∧ d.digits % 10 = 0 then strip count ⟨d.digits / 10, d.exponent + 1⟩
    else d

def Double.shortest (d : Double) : Scientific :=
  let i := d.interval
  let m := i.magnitude
  let found := (List.range 17).findSome? fun (n : Nat) =>
    (i.onGrid? (m - n)).map fun digits => Scientific.strip 20 ⟨digits, m - n⟩
  found.getD ⟨0, 0⟩

/-- Where a format stops writing all digits and turns to powers of ten. The point may stand
from before `least` zeros up to behind `most` digits. -/
structure Style where
  least : Int
  most : Int
  plus : String

def Scientific.render (style : Style) (d : Scientific) : String :=
  let digits := Nat.toDigits 10 d.digits
  let point := (digits.length : Int) + d.exponent
  let zeros (n : Int) := List.replicate n.toNat '0'
  if 0 ≤ d.exponent ∧ point ≤ style.most then
    String.ofList (digits ++ zeros d.exponent ++ ['.', '0'])
  else if 0 < point ∧ point ≤ style.most then
    String.ofList (digits.take point.toNat ++ '.' :: digits.drop point.toNat)
  else if style.least < point ∧ point ≤ 0 then
    String.ofList ('0' :: '.' :: zeros (-point) ++ digits)
  else
    let head := match digits with
      | [c] => [c]
      | c :: cs => c :: '.' :: cs
      | [] => []
    let power := point - 1
    String.ofList head ++ "e" ++ (if power < 0 then "-" else style.plus) ++ toString power.natAbs

def render (style : Style) (x : Float) : String :=
  let bits := x.toBits
  let sign := if bits.toNat < 1 <<< 63 then "" else "-"
  let d := Double.ofBits bits
  sign ++ if d.mantissa = 0 then "0.0" else d.shortest.render style

end CrossChain.Decimal
