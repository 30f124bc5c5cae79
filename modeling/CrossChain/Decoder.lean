import CrossChain.Bytes
/-! Reading values from the front of a byte string, without a reason for failure. -/
namespace CrossChain

abbrev Decoder (α : Type) := StateT Bytes Option α

namespace Decoder

def take (n : Nat) : Decoder Bytes := fun bs =>
  if bs.length < n then none else some (bs.take n, bs.drop n)

theorem take_append {n : Nat} {bs : Bytes} (h : bs.length = n) (rest : Bytes) :
    take n (bs ++ rest) = some (bs, rest) := by
  subst h
  simp [take]

def fail {α : Type} : Decoder α := fun _ => none

/-- The value, unless it lies outside of what may be written. -/
def ofOption {α : Type} : Option α → Decoder α
  | some a => pure a
  | none => fail

def word : Decoder Bytes32 := do ofOption (Bytes32.ofBytes? (← take 32))

def many {α : Type} (item : Decoder α) : Nat → Decoder (List α)
  | 0 => pure []
  | n + 1 => do
    let a ← item
    let rest ← many item n
    return a :: rest

/-- The value of an input that holds nothing else. -/
def run? {α : Type} (decoder : Decoder α) (bs : Bytes) : Option α :=
  match decoder bs with
  | some (a, []) => some a
  | _ => none

end Decoder

end CrossChain
