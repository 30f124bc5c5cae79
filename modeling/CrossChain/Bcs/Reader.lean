import CrossChain.Bytes
/-! Reading BCS. A reader is given the rest of the input and leaves a rest of that, also when
it fails: what a failing reader has taken stays taken. -/
namespace CrossChain.Bcs

inductive Fault where
  | unexpectedEnd (needed remaining : Nat)
  | badBool (byte : UInt8)
  | lengthOverflow
  | longLength
  | trailing (count : Nat)
deriving DecidableEq

def Fault.message : Fault → String
  | .unexpectedEnd needed remaining =>
    "unexpected end of input: needed " ++ toString needed ++ " bytes, " ++ toString remaining ++
      " remaining"
  | .badBool byte => "invalid bool byte: " ++ toString byte.toNat
  | .lengthOverflow => "ULEB128 length overflow"
  | .longLength => "non-canonical ULEB128 length"
  | .trailing count => toString count ++ " trailing bytes"

def Reader (α : Type) : Type := Bytes → Except Fault α × Bytes

namespace Reader

instance : Monad Reader where
  pure a := fun rest => (.ok a, rest)
  bind read next := fun rest =>
    match read rest with
    | (.ok a, rest) => next a rest
    | (.error e, rest) => (.error e, rest)

@[simp] theorem pure_apply {α : Type} (a : α) (rest : Bytes) :
    (pure a : Reader α) rest = (.ok a, rest) := rfl

theorem bind_apply {α β : Type} (read : Reader α) (next : α → Reader β) (rest : Bytes) :
    (read >>= next) rest = match read rest with
      | (.ok a, rest) => next a rest
      | (.error e, rest) => (.error e, rest) := rfl

theorem bind_of_ok {α β : Type} {read : Reader α} {next : α → Reader β} {bs rest : Bytes}
    {a : α} (h : read bs = (.ok a, rest)) : (read >>= next) bs = next a rest := by
  simp [bind_apply, h]

def fail {α : Type} (e : Fault) : Reader α := fun rest => (.error e, rest)

def remaining : Reader Nat := fun rest => (.ok rest.length, rest)

/-- Takes all of the bytes asked for or none. -/
def take (n : Nat) : Reader Bytes := fun rest =>
  if rest.length < n then (.error (.unexpectedEnd n rest.length), rest)
  else (.ok (rest.take n), rest.drop n)

theorem take_append {n : Nat} {bs : Bytes} (h : bs.length = n) (rest : Bytes) :
    take n (bs ++ rest) = (.ok bs, rest) := by
  subst h
  simp [take]

def natural (width : Nat) : Reader Nat := Bytes.toNatLE <$> take width

def u8 : Reader UInt8 := UInt8.ofNat <$> natural 1

def u16 : Reader UInt16 := UInt16.ofNat <$> natural 2

def u32 : Reader UInt32 := UInt32.ofNat <$> natural 4

def u64 : Reader UInt64 := UInt64.ofNat <$> natural 8

def u256 : Reader U256 := BitVec.ofNat 256 <$> natural 32

def bool : Reader Bool := do
  let b ← u8
  if b = 0 then return false
  else if b = 1 then return true
  else fail (.badBool b)

def maxLength : Nat := UInt32.size - 1

/-- The rest of a length of which the given bits are known. Each digit must fit the 64 bits
left at its place, and the last of several digits may not be zero. -/
def lengthFrom (known place : Nat) : Reader Nat
  | [] => (.error (.unexpectedEnd 1 0), [])
  | b :: rest =>
    let digit := b.toNat % 128
    if 64 ≤ place then (.error .lengthOverflow, rest)
    else if UInt64.size ≤ digit <<< place then (.error .lengthOverflow, rest)
    else
      let known := known + digit <<< place
      if 128 ≤ b.toNat then lengthFrom known (place + 7) rest
      else if 0 < place ∧ digit = 0 then (.error .longLength, rest)
      else if maxLength < known then (.error .lengthOverflow, rest)
      else (.ok known, rest)

def length : Reader Nat := lengthFrom 0 0

def address : Reader Bytes32 := fun rest =>
  if h : rest.length < 32 then (.error (.unexpectedEnd 32 rest.length), rest)
  else (.ok ⟨rest.take 32, by simp; omega⟩, rest.drop 32)

def bytes : Reader Bytes := do
  let n ← length
  take n

def many {α : Type} (item : Reader α) : Nat → Reader (List α)
  | 0 => pure []
  | n + 1 => do
    let a ← item
    let rest ← many item n
    return a :: rest

/-- A length that the remaining input cannot hold is refused before the first item. -/
def addresses : Reader (List Bytes32) := do
  let n ← length
  let left ← remaining
  if left / 32 < n then fail (.unexpectedEnd (n * 32) left) else many address n

/-- Each item takes at least one byte, so the remaining input bounds their number. -/
def bytesList : Reader (List Bytes) := do
  let n ← length
  let left ← remaining
  if left < n then fail (.unexpectedEnd n left) else many bytes n

def finish : Reader Unit := fun rest =>
  match rest with
  | [] => (.ok (), [])
  | _ => (.error (.trailing rest.length), rest)

end Reader

end CrossChain.Bcs
