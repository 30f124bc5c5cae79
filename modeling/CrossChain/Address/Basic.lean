import CrossChain.Error
/-! Accounts of a chain family as their canonical bytes, of which there are always as many as
the family asks for. -/
namespace CrossChain

/-- A Move address may name a module of the account; the bytes are those of the account. -/
structure Address where
  family : Family
  bytes : Bytes
  moduleName : Option String
  length_eq : bytes.length = family.addressLength
deriving DecidableEq

namespace Address

/-- An EVM address may also stand at the end of 32 bytes, behind zeros. -/
def ofBytes (bs : Bytes) (family : Family) : Except Error Address :=
  if family = .evm ∧ bs.length = 32 ∧ (bs.take 12).any (· ≠ 0) then
    .error (.badAddress family (Hex.text bs) .slotNotPadded)
  else
    let canonical := if family = .evm ∧ bs.length = 32 then bs.drop 12 else bs
    if h : canonical.length = family.addressLength then .ok ⟨family, canonical, none, h⟩
    else .error (.addressLength family family.addressLength bs.length (Hex.text bs))

def zero (family : Family) : Address :=
  ⟨family, List.replicate family.addressLength 0, none, by simp⟩

def withModule (a : Address) (name : String) : Address :=
  { a with moduleName := some name }

def isZero (a : Address) : Bool :=
  a.bytes.all (· == 0)

/-- The bytes as messages carry them: those of an EVM address fill 32 bytes. -/
def crossChainBytes (a : Address) : Bytes :=
  match a.family with
  | .evm => Bytes.padLeft 32 a.bytes
  | _ => a.bytes

def evmBytes? (a : Address) : Option Bytes :=
  match a.family with
  | .evm => some a.bytes
  | _ => none

theorem length_crossChainBytes (a : Address) :
    a.crossChainBytes.length = if a.family = .ton then 36 else 32 := by
  obtain ⟨family, bytes, moduleName, h⟩ := a
  cases family <;> simp_all [crossChainBytes, Bytes.padLeft, Family.addressLength]

end Address

end CrossChain
