import CrossChain.Decoder
/-! The Borsh layout. Numbers have fixed width and start with the least significant byte;
a length takes four bytes, so a longer list has no written form. -/
namespace CrossChain.Borsh

def length? (n : Nat) : Option Bytes :=
  if n < UInt32.size then some (Bytes.ofNatLE 4 n) else none

def bool (b : Bool) : Bytes := [if b then 1 else 0]

def bytes? (bs : Bytes) : Option Bytes := do
  return (← length? bs.length) ++ bs

def words? (ws : List Bytes32) : Option Bytes := do
  return (← length? ws.length) ++ ws.flatMap Bytes32.toBytes

/-- None if there are too many items, or if one of them has no written form itself. -/
def list? {α : Type} (item? : α → Option Bytes) (items : List α) : Option Bytes := do
  let count ← length? items.length
  return count ++ (← items.mapM item?).flatten

namespace Decoder

def natural (width : Nat) : Decoder Nat := do
  return Bytes.toNatLE (← CrossChain.Decoder.take width)

/-- Other numbers than zero and one are refused. -/
def bool : Decoder Bool := do
  match ← natural 1 with
  | 0 => return false
  | 1 => return true
  | _ => CrossChain.Decoder.fail

def bytes : Decoder Bytes := do
  let n ← natural 4
  CrossChain.Decoder.take n

def list {α : Type} (item : Decoder α) : Decoder (List α) := do
  let n ← natural 4
  item.many n

end Decoder

end CrossChain.Borsh
