import CrossChain.Decoder
/-! The contract ABI. A tuple is the heads of its parts and then their tails: a static part
stands in its head, a dynamic one in its tail, and its head is the distance to that. -/
namespace CrossChain.Abi

/-- A number below `2 ^ 256` in 32 bytes, the most significant first. -/
def word (n : Nat) : Bytes := Bytes.ofNatBE 32 n

def bool (b : Bool) : Bytes := word (if b then 1 else 0)

/-- A component of a tuple, already written. -/
inductive Part where
  | static (bs : Bytes)
  | dynamic (bs : Bytes)
deriving DecidableEq

namespace Part

def headLength : Part → Nat
  | .static bs => bs.length
  | .dynamic _ => 32

def tail : Part → Bytes
  | .static _ => []
  | .dynamic bs => bs

end Part

def headsLength : List Part → Nat
  | [] => 0
  | part :: rest => part.headLength + headsLength rest

/-- The heads of some parts whose first tail stands at the given distance. -/
def heads : Nat → List Part → Bytes
  | _, [] => []
  | offset, .static bs :: rest => bs ++ heads offset rest
  | offset, .dynamic bs :: rest => word offset ++ heads (offset + bs.length) rest

def tails (parts : List Part) : Bytes := parts.flatMap Part.tail

def tuple (parts : List Part) : Bytes :=
  heads (headsLength parts) parts ++ tails parts

/-- A single value, as the only part of a tuple. -/
def single (part : Part) : Bytes := tuple [part]

def array (parts : List Part) : Bytes := word parts.length ++ tuple parts

def padRight (bs : Bytes) : Bytes :=
  bs ++ List.replicate ((32 - bs.length % 32) % 32) 0

def bytes (bs : Bytes) : Bytes := word bs.length ++ padRight bs

def words (ws : List Bytes32) : Bytes := array (ws.map fun w => .static w.toBytes)

def bytesList (items : List Bytes) : Bytes := array (items.map fun bs => .dynamic (bytes bs))

/-! Tails stand in the order of their heads and without gaps, so a reader need not look at
distances; that they are the right ones is seen when the value is written again. -/
namespace Decoder

def natural : Decoder Nat := do
  return Bytes.toNatBE (← CrossChain.Decoder.take 32)

def uint (bits : Nat) : Decoder Nat := do
  let n ← natural
  if n < 1 <<< bits then return n else CrossChain.Decoder.fail

def bool : Decoder Bool := do
  match ← natural with
  | 0 => return false
  | 1 => return true
  | _ => CrossChain.Decoder.fail

/-- Passes over the distances of some dynamic parts. -/
def offsets (count : Nat) : Decoder Unit := do
  let _ ← CrossChain.Decoder.take (32 * count)

def bytes : Decoder Bytes := do
  let n ← natural
  let bs ← CrossChain.Decoder.take n
  let _ ← CrossChain.Decoder.take ((32 - n % 32) % 32)
  return bs

def words : Decoder (List Bytes32) := do
  let n ← natural
  CrossChain.Decoder.word.many n

def bytesList : Decoder (List Bytes) := do
  let n ← natural
  offsets n
  bytes.many n

end Decoder

end CrossChain.Abi
