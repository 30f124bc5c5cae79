import CrossChain.Bcs.Reader
import CrossChain.Bcs.Writer
/-! Sequences of typed BCS values: what is written in order is read back in order. -/
namespace CrossChain.Bcs

inductive Kind where
  | u8
  | u16
  | u32
  | u64
  | u256
  | bool
  | length
  | address
  | bytes
  | addresses
  | bytesList
deriving DecidableEq

inductive Item where
  | u8 (n : UInt8)
  | u16 (n : UInt16)
  | u32 (n : UInt32)
  | u64 (n : UInt64)
  | u256 (n : U256)
  | bool (b : Bool)
  | length (n : Nat)
  | address (w : Bytes32)
  | bytes (bs : Bytes)
  | addresses (ws : List Bytes32)
  | bytesList (items : List Bytes)
deriving DecidableEq

namespace Item

def kind : Item → Kind
  | .u8 _ => .u8
  | .u16 _ => .u16
  | .u32 _ => .u32
  | .u64 _ => .u64
  | .u256 _ => .u256
  | .bool _ => .bool
  | .length _ => .length
  | .address _ => .address
  | .bytes _ => .bytes
  | .addresses _ => .addresses
  | .bytesList _ => .bytesList

def write : Item → Bytes
  | .u8 n => Bcs.u8 n
  | .u16 n => Bcs.u16 n
  | .u32 n => Bcs.u32 n
  | .u64 n => Bcs.u64 n
  | .u256 n => Bcs.u256 n
  | .bool b => Bcs.bool b
  | .length n => Bcs.length n
  | .address w => Bcs.address w
  | .bytes bs => Bcs.bytes bs
  | .addresses ws => Bcs.addresses ws
  | .bytesList items => Bcs.bytesList items

/-- Every length in the item is one that can be read. -/
def Fits : Item → Prop
  | .length n => n ≤ Reader.maxLength
  | .bytes bs => bs.length ≤ Reader.maxLength
  | .addresses ws => ws.length ≤ Reader.maxLength
  | .bytesList items =>
    items.length ≤ Reader.maxLength ∧ ∀ bs ∈ items, bs.length ≤ Reader.maxLength
  | _ => True

def writeAll (items : List Item) : Bytes := items.flatMap write

end Item

namespace Kind

def read : Kind → Reader Item
  | .u8 => Item.u8 <$> Reader.u8
  | .u16 => Item.u16 <$> Reader.u16
  | .u32 => Item.u32 <$> Reader.u32
  | .u64 => Item.u64 <$> Reader.u64
  | .u256 => Item.u256 <$> Reader.u256
  | .bool => Item.bool <$> Reader.bool
  | .length => Item.length <$> Reader.length
  | .address => Item.address <$> Reader.address
  | .bytes => Item.bytes <$> Reader.bytes
  | .addresses => Item.addresses <$> Reader.addresses
  | .bytesList => Item.bytesList <$> Reader.bytesList

def readAll : List Kind → Reader (List Item)
  | [] => pure []
  | k :: ks => do
    let item ← k.read
    let rest ← readAll ks
    return item :: rest

/-- The values of an input that holds nothing else. -/
def readWhole (kinds : List Kind) : Reader (List Item) := do
  let items ← readAll kinds
  Reader.finish
  return items

end Kind

end CrossChain.Bcs
